import GoP2P.FileEffects

/-!
# Archives with hostile names

Whatever the entries of an archive are called, `extractTarball` touches only what
lies below the destination, skips links, leaves no file above the size limit
behind when it succeeds, and does not succeed on an archive that has a name with
a way out.
-/

namespace GoP2P.Node

open LexicalPath

/-- An absolute name, or one that starts by going up. -/
def TarEntry.Escapes (entry : TarEntry) : Prop :=
  isAbs (clean entry.name) = true ∨ clean entry.name = dotDot ∨
    dotDot ++ [separator] <+: clean entry.name

theorem TarEntry.Escapes.not_admitted {entry : TarEntry}
    (hescapes : entry.Escapes) (root : List Bytes) : ¬ entry.Admitted root := by
  intro hentry
  rcases hescapes with habs | hup | hbegins
  · exact hentry.relative habs
  · exact hentry.inside (.inr hup)
  · exact hentry.inside (.inl (List.isPrefixOf_iff_prefix.mpr hbegins))

def DeployEvent.Opens (path : List Bytes) : DeployEvent → Prop
  | .openFile opened _ => opened = path
  | _ => False

def HoldsSmallFile (tree : FileTree) (path : List Bytes) : Prop :=
  ∃ content, fileAt tree path = some content ∧ content.length ≤ maxFileSize

section

variable {disk : Disk}

/-! ### The size of what was extracted -/

theorem fileAt_ensureBelow {tree tree' : FileTree} {done path : List Bytes}
    (hreturned : (ensureBelow disk tree done path).outcome = .returned tree')
    (other : List Bytes) : fileAt tree' other = fileAt tree other := by
  have hkept := ensureBelow_keepsFiles disk tree done path other
  rw [ensureBelow_performs tree done path tree' hreturned] at hkept
  exact hkept

theorem fileAt_openFile {tree tree' : FileTree} {path : List Bytes}
    {mode : UInt64}
    (hreturned : (openFile disk tree path mode).outcome = .returned tree')
    (other : List Bytes) :
    fileAt tree' other = if other = path then some [] else fileAt tree other := by
  rcases openFile_cases disk tree path mode with ⟨error, hopen⟩ | ⟨-, hopen⟩
  · rw [hopen] at hreturned
    cases hreturned
  · rw [hopen] at hreturned
    cases hreturned
    exact fileAt_insert_file tree path other _ _

theorem fileAt_copyTo {tree tree' : FileTree} {path : List Bytes}
    {content : Bytes}
    (hreturned : (copyTo disk tree path content).outcome = .returned tree')
    (other : List Bytes) :
    fileAt tree' other =
      if other = path then some content else fileAt tree other := by
  rcases copyTo_cases disk tree path content with
    ⟨written, error, hcopy⟩ | hcopy
  · rw [hcopy] at hreturned
    cases hreturned
  · rw [hcopy] at hreturned
    cases hreturned
    exact fileAt_insert_file tree path other _ _

/-- An entry that was written leaves one file changed, within the limit. -/
theorem fileAt_writeEntry {tree tree' : FileTree} {fullPath : Bytes}
    {entry : TarEntry}
    (hreturned : (writeEntry disk tree fullPath entry).outcome =
      .returned tree') :
    ∃ content, content.length ≤ maxFileSize ∧ ∀ other,
      fileAt tree' other =
        if other = place fullPath then some content else fileAt tree other := by
  unfold writeEntry ensureDir at hreturned
  simp only [Traced.bind_outcome, Outcome.bind_eq_returned_iff,
    Traced.mapError_outcome, Outcome.mapError_eq_returned_iff] at hreturned
  rcases hreturned with
    ⟨ensured, hensured, opened, hopened, copied, hcopied, hrest⟩
  split at hrest
  next => cases hrest
  next hsize =>
    cases hrest
    refine ⟨_, not_lt.mp hsize, ?_⟩
    intro other
    rw [fileAt_copyTo hcopied, fileAt_openFile hopened,
      fileAt_ensureBelow hensured]
    split_ifs <;> rfl

theorem writeEntry_opens (tree : FileTree) (fullPath : Bytes)
    (entry : TarEntry) :
    (writeEntry disk tree fullPath entry).Emits fun event =>
      ∀ path, event.Opens path → path = place fullPath := by
  unfold writeEntry ensureDir
  apply Traced.Emits.bind
  · intro event hevent path hopens
    rcases ensureBelow_emits tree [] _ event hevent with ⟨created, rfl, -⟩
    exact hopens.elim
  · intro ensured _
    apply Traced.Emits.bind
    · rw [Traced.emits_mapError_iff]
      intro event hevent path hopens
      rcases openFile_emits ensured _ _ event hevent with ⟨rfl, -⟩
      exact hopens.symm
    · intro opened _
      apply Traced.Emits.bind
      · rw [Traced.emits_mapError_iff]
        intro event hevent path hopens
        rcases copyTo_emits opened _ _ event hevent with ⟨written, rfl⟩
        exact hopens.elim
      · intro copied _
        split
        · apply Traced.Emits.bind
          · rw [Traced.emits_emit_iff]
            intro path hopens
            exact hopens.elim
          · intro _ _
            simp
        · simp

/-- When the call returns, the files that it opened are within the limit, and
so are those that were. -/
def LeavesSmall {α : Type} (tree : FileTree) (after : α → FileTree)
    (call : Traced DeployEvent CoreError α) : Prop :=
  ∀ value, call.outcome = .returned value → ∀ path,
    (∃ event ∈ call.events, event.Opens path) ∨ HoldsSmallFile tree path →
      HoldsSmallFile (after value) path

theorem leavesSmall_of_events_eq_nil {α : Type} {tree : FileTree}
    {after : α → FileTree} {call : Traced DeployEvent CoreError α}
    (hevents : call.events = [])
    (hafter : ∀ value, call.outcome = .returned value → after value = tree) :
    LeavesSmall tree after call := by
  rintro value hvalue path (⟨event, hevent, -⟩ | hsmall)
  · rw [hevents] at hevent
    cases hevent
  · rw [hafter value hvalue]
    exact hsmall

theorem LeavesSmall.bind {α β : Type} {tree : FileTree} {after : α → FileTree}
    {final : β → FileTree} {call : Traced DeployEvent CoreError α}
    {next : α → Traced DeployEvent CoreError β}
    (hcall : LeavesSmall tree after call)
    (hnext : ∀ value, call.outcome = .returned value →
      LeavesSmall (after value) final (next value)) :
    LeavesSmall tree final (call >>= next) := by
  intro result hresult path hpath
  rw [Traced.bind_outcome, Outcome.bind_eq_returned_iff] at hresult
  obtain ⟨value, hvalue, hresult⟩ := hresult
  apply hnext value hvalue result hresult path
  rcases hpath with ⟨event, hevent, hopens⟩ | hsmall
  · rw [Traced.bind_of_returned hvalue, List.mem_append] at hevent
    rcases hevent with hfirst | hsecond
    · exact .inr (hcall value hvalue path (.inl ⟨event, hfirst, hopens⟩))
    · exact .inl ⟨event, hsecond, hopens⟩
  · exact .inr (hcall value hvalue path (.inr hsmall))

theorem ensureBelow_leavesSmall (tree : FileTree) (done path : List Bytes) :
    LeavesSmall tree id (ensureBelow disk tree done path) := by
  rintro tree' hreturned other (⟨event, hevent, hopens⟩ | hsmall)
  · rcases ensureBelow_emits tree done path event hevent with ⟨created, rfl, -⟩
    exact hopens.elim
  · unfold HoldsSmallFile
    rw [id, fileAt_ensureBelow hreturned]
    exact hsmall

theorem writeEntry_leavesSmall (tree : FileTree) (fullPath : Bytes)
    (entry : TarEntry) :
    LeavesSmall tree id (writeEntry disk tree fullPath entry) := by
  intro tree' hreturned other hother
  obtain ⟨content, hsize, hfiles⟩ := fileAt_writeEntry hreturned
  by_cases hwritten : other = place fullPath
  · refine ⟨content, ?_, hsize⟩
    rw [id, hfiles, if_pos hwritten]
  · rcases hother with ⟨event, hevent, hopens⟩ | hsmall
    · exact absurd (writeEntry_opens tree fullPath entry event hevent other
        hopens) hwritten
    · unfold HoldsSmallFile
      rw [id, hfiles, if_neg hwritten]
      exact hsmall

theorem unpack_leavesSmall (root : List Bytes) (state : FileTree × Bytes)
    (entry : TarEntry) :
    LeavesSmall state.1 Prod.fst (unpack disk root state entry) := by
  have hpure : ∀ (tree : FileTree) (executable : Bytes),
      LeavesSmall tree Prod.fst
        (pure (tree, executable) : Traced DeployEvent CoreError _) := by
    intro tree executable
    refine leavesSmall_of_events_eq_nil rfl ?_
    rintro _ ⟨⟩
    rfl
  unfold unpack
  split
  · exact (ensureBelow_leavesSmall _ _ _).bind fun _ _ => hpure _ _
  · exact (writeEntry_leavesSmall _ _ _).bind fun _ _ => hpure _ _
  · exact hpure _ _

theorem extractEntry_leavesSmall {root : List Bytes}
    (hroot : ∀ part ∈ root, IsName part) (state : FileTree × Bytes)
    (entry : TarEntry) :
    LeavesSmall state.1 Prod.fst
      (extractEntry disk (absoluteText root) state entry) := by
  rcases extractEntry_cases disk hroot state entry with
    ⟨error, hextract⟩ | ⟨-, hextract⟩
  · rw [hextract]
    refine leavesSmall_of_events_eq_nil rfl ?_
    rintro _ ⟨⟩
  · rw [hextract]
    exact unpack_leavesSmall root state entry

theorem extractEntries_leavesSmall {root : List Bytes}
    (hroot : ∀ part ∈ root, IsName part) (state : FileTree × Bytes)
    (entries : List TarEntry) :
    LeavesSmall state.1 Prod.fst
      (extractEntries disk (absoluteText root) state entries) := by
  induction entries generalizing state with
  | nil =>
      refine leavesSmall_of_events_eq_nil rfl ?_
      rintro _ ⟨⟩
      rfl
  | cons entry rest ih =>
      exact (extractEntry_leavesSmall hroot state entry).bind
        fun state' _ => ih state'

theorem extractEntries_admitted {root : List Bytes}
    (hroot : ∀ part ∈ root, IsName part) {state state' : FileTree × Bytes}
    {entries : List TarEntry}
    (hreturned : (extractEntries disk (absoluteText root) state
      entries).outcome = .returned state') :
    ∀ entry ∈ entries, entry.Admitted root := by
  induction entries generalizing state with
  | nil => simp
  | cons entry rest ih =>
      rw [extractEntries, Traced.bind_outcome,
        Outcome.bind_eq_returned_iff] at hreturned
      obtain ⟨between, hentry, hrest⟩ := hreturned
      intro other hother
      rcases List.mem_cons.mp hother with rfl | hother
      · rcases extractEntry_cases disk hroot state other with
          ⟨error, hextract⟩ | ⟨hadmitted, -⟩
        · rw [hextract] at hentry
          cases hentry
        · exact hadmitted
      · exact ih hrest other hother

/-! ### Whole archives -/

/-- The part of an extraction that changes the tree. -/
def unpackAll (disk : Disk) (tree : FileTree) (entries : List TarEntry)
    (root : List Bytes) : Traced DeployEvent CoreError (FileTree × Bytes) := do
  let tree ← ensureBelow disk tree [] root
  extractEntries disk (absoluteText root) (tree, []) entries

theorem extractAt_eq_unpackAll (tree : FileTree) (archive : TarArchive)
    (root : List Bytes) :
    extractAt disk tree archive root = (do
      let state ← unpackAll disk tree archive.entries root
      Traced.lift (.ofExcept archive.ending)
      pure state.2) :=
  (Traced.bind_assoc _ _ _).symm

variable (disk) in
theorem extractAt_ends {root : List Bytes}
    (hroot : ∀ part ∈ root, IsName part) (tree : FileTree)
    (archive : TarArchive) :
    (extractAt disk tree archive root).outcome.Ends := by
  unfold extractAt
  refine Traced.ends_bind (ensureBelow_ends tree [] root) fun ensured _ => ?_
  refine Traced.ends_bind (extractEntries_ends hroot _ _) fun state _ => ?_
  cases archive.ending with
  | error error => exact Outcome.ends_failed error
  | ok => exact Outcome.ends_returned state.2

theorem unpackAll_of_extractAt {tree : FileTree} {archive : TarArchive}
    {root : List Bytes} {executable : Bytes}
    (hreturned : (extractAt disk tree archive root).outcome =
      .returned executable) :
    ∃ state, (unpackAll disk tree archive.entries root).outcome =
        .returned state ∧
      (extractAt disk tree archive root).events =
        (unpackAll disk tree archive.entries root).events := by
  rw [extractAt_eq_unpackAll] at hreturned ⊢
  rw [Traced.bind_outcome, Outcome.bind_eq_returned_iff] at hreturned
  obtain ⟨state, hstate, -⟩ := hreturned
  have hrest : (do
      Traced.lift (.ofExcept archive.ending)
      pure state.2 : Traced DeployEvent CoreError Bytes).events = [] := by
    cases archive.ending <;> rfl
  refine ⟨state, hstate, ?_⟩
  rw [Traced.bind_of_returned hstate, hrest, List.append_nil]

theorem extractAt_small {root : List Bytes}
    (hroot : ∀ part ∈ root, IsName part) {tree : FileTree}
    {archive : TarArchive} {executable : Bytes}
    (hreturned : (extractAt disk tree archive root).outcome =
      .returned executable) {path : List Bytes} {mode : UInt64}
    (hopened : .openFile path mode ∈
      (extractAt disk tree archive root).events) :
    HoldsSmallFile (applyAll tree (extractAt disk tree archive root).events)
      path := by
  obtain ⟨state, hstate, hevents⟩ := unpackAll_of_extractAt hreturned
  rw [hevents] at hopened ⊢
  have hperforms : Performs tree Prod.fst
      (unpackAll disk tree archive.entries root) :=
    (ensureBelow_performs tree [] root).bind
      fun _ _ => extractEntries_performs hroot _ _
  have hsmall : LeavesSmall tree Prod.fst
      (unpackAll disk tree archive.entries root) :=
    (ensureBelow_leavesSmall tree [] root).bind
      fun _ _ => extractEntries_leavesSmall hroot _ _
  rw [hperforms state hstate]
  exact hsmall state hstate path (.inl ⟨_, hopened, rfl⟩)

theorem extractAt_admitted {root : List Bytes}
    (hroot : ∀ part ∈ root, IsName part) {tree : FileTree}
    {archive : TarArchive} {executable : Bytes}
    (hreturned : (extractAt disk tree archive root).outcome =
      .returned executable) :
    ∀ entry ∈ archive.entries, entry.Admitted root := by
  obtain ⟨state, hstate, -⟩ := unpackAll_of_extractAt hreturned
  rw [unpackAll, Traced.bind_outcome, Outcome.bind_eq_returned_iff] at hstate
  obtain ⟨ensured, -, hentries⟩ := hstate
  exact extractEntries_admitted hroot hentries

theorem unpack_link_events {root : List Bytes}
    (hroot : ∀ part ∈ root, IsName part) {entry : TarEntry}
    (hdir : entry.typeflag ≠ .dir) (hreg : entry.typeflag ≠ .reg)
    (state : FileTree × Bytes) :
    (extractEntry disk (absoluteText root) state entry).events = [] := by
  rcases extractEntry_cases disk hroot state entry with
    ⟨error, hextract⟩ | ⟨-, hextract⟩
  · rw [hextract]
    rfl
  · rw [hextract, unpack_of_link hdir hreg]
    rfl

/-- Files are written strictly below the destination; links are skipped; what a
successful call has extracted is within the size limit; a name that leads out
makes the call fail. -/
theorem extractTarball_contained {cwd : Bytes} (hdisk : disk.WorksIn cwd)
    (hcwd : isAbs cwd = true) (tree : FileTree) (archive : TarArchive)
    (destDir : Bytes) :
    (∀ event ∈ (extractTarball disk tree archive destDir).events,
      event.ConfinedTo (placeIn cwd destDir)) ∧
    (∀ entry ∈ archive.entries, entry.typeflag ≠ .dir →
      entry.typeflag ≠ .reg → ∀ state,
        (extractEntry disk (absoluteText (placeIn cwd destDir)) state
          entry).events = []) ∧
    (∀ executable, (extractTarball disk tree archive destDir).outcome =
        .returned executable →
      ∀ path mode, .openFile path mode ∈
          (extractTarball disk tree archive destDir).events →
        HoldsSmallFile (applyAll tree
          (extractTarball disk tree archive destDir).events) path) ∧
    ((∃ entry ∈ archive.entries, entry.Escapes) →
      ∃ error, (extractTarball disk tree archive destDir).outcome =
        .failed error) := by
  have hroot : ∀ part ∈ placeIn cwd destDir, IsName part :=
    fun _ => isName_of_mem_placeIn
  refine ⟨?_, ?_, ?_, ?_⟩
  · exact extractTarball_emits_of_extractAt hdisk hcwd
      (extractAt_emits hroot tree archive)
  · intro entry _ hdir hreg state
    exact unpack_link_events hroot hdir hreg state
  · intro executable hreturned path mode hopened
    rcases extractTarball_cases hdisk hcwd tree archive destDir with
      hextract | ⟨error, hextract⟩
    · rw [hextract] at hreturned hopened ⊢
      exact extractAt_small hroot hreturned hopened
    · rw [hextract] at hreturned
      cases hreturned
  · rintro ⟨entry, hentry, hescapes⟩
    rcases extractTarball_cases hdisk hcwd tree archive destDir with
      hextract | ⟨error, hextract⟩
    · rw [hextract]
      rcases extractAt_ends disk hroot tree archive with
        ⟨executable, hreturned⟩ | hfailed
      · exact absurd (extractAt_admitted hroot hreturned entry hentry)
          (hescapes.not_admitted _)
      · exact hfailed
    · rw [hextract]
      exact ⟨error, rfl⟩

end

def sampleHostile : TarArchive where
  entries :=
    [{ name := text "bin/miner", typeflag := .reg, mode := 0o755,
       content := [1] },
      { name := text "link", typeflag := .symlink, mode := 0, content := [] },
      { name := text "bin/../../evil", typeflag := .reg, mode := 0o644,
        content := [2] }]

/-- The third name cleans to one that starts by going up. -/
theorem extractTarball_contained_hostile :
    .openFile [text "d", text "bin", text "miner"] 0o755 ∈
        (extractTarball (.faultless (text "/")) ∅ sampleHostile
          (text "/d")).events ∧
    ∃ error, (extractTarball (.faultless (text "/")) ∅ sampleHostile
      (text "/d")).outcome = .failed error := by
  refine ⟨by decide, ?_⟩
  have hdisk : (Disk.faultless (text "/")).WorksIn (text "/") :=
    Disk.worksIn_of_getwd rfl
  refine (extractTarball_contained hdisk rfl ∅ sampleHostile
    (text "/d")).2.2.2 ⟨_, List.mem_cons_of_mem _
      (List.mem_cons_of_mem _ List.mem_cons_self), ?_⟩
  exact .inr (.inr (by decide))

end GoP2P.Node
