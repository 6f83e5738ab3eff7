import GoP2P.Processes

/-!
# Writing a file by renaming

A file is replaced by writing a temporary file next to it and renaming that
one.  Opening truncates the temporary file or creates it, its content is
written in pieces at the writer's own offset, and the rename moves the
directory entry.  Several writers may do so at once, all by way of the same
temporary name.  What a writer has to itself from its first step to its last is
complete when it gets the file's name.
-/

namespace GoP2P

/-- The entries of the file and of its temporary twin, as positions in the list
of all contents. -/
structure Directory (β : Type*) where
  inodes : List (List β) := []
  temp : Option ℕ := none
  target : Option ℕ := none
  deriving DecidableEq, Repr

inductive WriterStage where
  | opening
  | filling (inode written : ℕ)
  | filled
  | done (ok : Bool)
  deriving DecidableEq, Repr

structure Writer (β : Type*) where
  data : List β
  stage : WriterStage := .opening
  deriving DecidableEq, Repr

/-- How the next operation of a writer ends: it goes well, where a write puts
down at most `size` elements, or it fails.  After a rename that fails the
temporary file is deleted, unless this fails as well. -/
inductive WriterEvent where
  | proceed (size : ℕ)
  | fail (deleted : Bool)
  deriving DecidableEq, Repr

variable {β : Type*}

namespace Directory

def read (disk : Directory β) : Option (List β) :=
  disk.target.bind fun inode => disk.inodes[inode]?

def openTemp (disk : Directory β) : Directory β × ℕ :=
  match disk.temp with
  | some inode => ({ disk with inodes := disk.inodes.set inode [] }, inode)
  | none =>
      ({ disk with
          inodes := disk.inodes ++ [[]]
          temp := some disk.inodes.length },
        disk.inodes.length)

/-- A write behind the end of the content leaves a hole. -/
def overwrite [Inhabited β] (offset : ℕ) (chunk content : List β) : List β :=
  (content ++ List.replicate (offset - content.length) default).take offset ++
    chunk ++ content.drop (offset + chunk.length)

def writeAt [Inhabited β] (disk : Directory β) (inode offset : ℕ)
    (chunk : List β) : Directory β :=
  { disk with inodes := disk.inodes.modify inode (overwrite offset chunk) }

/-- A rename without a source fails. -/
def rename (disk : Directory β) : Directory β × Bool :=
  match disk.temp with
  | some inode => ({ disk with temp := none, target := some inode }, true)
  | none => (disk, false)

def deleteTemp (disk : Directory β) (deleted : Bool) : Directory β :=
  if deleted then { disk with temp := none } else disk

end Directory

def Writer.advance [Inhabited β] (disk : Directory β) (writer : Writer β) :
    WriterEvent → Directory β × Writer β
  | .proceed size =>
      match writer.stage with
      | .opening =>
          let opened := disk.openTemp
          (opened.1, { writer with stage := .filling opened.2 0 })
      | .filling inode written =>
          let chunk := (writer.data.drop written).take size
          (disk.writeAt inode written chunk,
            { writer with
              stage :=
                if written + chunk.length < writer.data.length then
                  .filling inode (written + chunk.length)
                else .filled })
      | .filled =>
          let renamed := disk.rename
          (renamed.1, { writer with stage := .done renamed.2 })
      | .done _ => (disk, writer)
  | .fail deleted =>
      match writer.stage with
      | .opening | .filling _ _ => (disk, { writer with stage := .done false })
      | .filled =>
          (disk.deleteTemp deleted, { writer with stage := .done false })
      | .done _ => (disk, writer)

/-! ### One writer at a time -/

/-- Both entries lead to contents, and not to the same one. -/
structure Directory.Tidy (disk : Directory β) : Prop where
  temp : ∀ ⦃inode⦄, disk.temp = some inode → inode < disk.inodes.length
  target : ∀ ⦃inode⦄, disk.target = some inode → inode < disk.inodes.length
  apart : ∀ ⦃inode⦄, disk.temp = some inode → disk.target ≠ some inode

theorem Directory.tidy_empty : ({} : Directory β).Tidy :=
  ⟨(fun _ h => by cases h), (fun _ h => by cases h), (fun _ h => by cases h)⟩

/-- The temporary file is the writer's own and holds what it has written. -/
def Writer.Owns (writer : Writer β) (disk : Directory β) : Prop :=
  match writer.stage with
  | .opening | .done _ => True
  | .filling inode written =>
      disk.temp = some inode ∧ written ≤ writer.data.length ∧
        disk.inodes[inode]? = some (writer.data.take written)
  | .filled =>
      ∃ inode, disk.temp = some inode ∧
        disk.inodes[inode]? = some writer.data

namespace Directory.Tidy

/-- A step that leaves the file's entry and content alone. -/
theorem of_kept {disk disk' : Directory β} (htidy : disk.Tidy)
    (htarget : disk'.target = disk.target)
    (hlength : disk.inodes.length ≤ disk'.inodes.length)
    (htemp : ∀ ⦃inode⦄, disk'.temp = some inode →
      inode < disk'.inodes.length ∧ disk.target ≠ some inode)
    (hkept : ∀ ⦃inode⦄, disk.target = some inode →
      disk'.inodes[inode]? = disk.inodes[inode]?) :
    disk'.Tidy ∧ disk'.read = disk.read := by
  refine ⟨⟨?_, ?_, ?_⟩, ?_⟩
  · intro inode hinode
    exact (htemp hinode).1
  · intro inode hinode
    rw [htarget] at hinode
    exact lt_of_lt_of_le (htidy.target hinode) hlength
  · intro inode hinode
    rw [htarget]
    exact (htemp hinode).2
  · unfold Directory.read
    rw [htarget]
    cases hinode : disk.target with
    | none => rfl
    | some inode => exact hkept hinode

theorem openTemp {disk : Directory β} (htidy : disk.Tidy) :
    (disk.openTemp.1.Tidy ∧ disk.openTemp.1.read = disk.read) ∧
      disk.openTemp.1.temp = some disk.openTemp.2 ∧
      disk.openTemp.1.inodes[disk.openTemp.2]? = some [] := by
  unfold Directory.openTemp
  split
  next inode htemp =>
    have hlt := htidy.temp htemp
    refine ⟨htidy.of_kept ?_ ?_ ?_ ?_, htemp, List.getElem?_set_self hlt⟩
    · rfl
    · simp
    · intro i hi
      rw [List.length_set]
      exact ⟨htidy.temp hi, htidy.apart hi⟩
    · intro i hi
      apply List.getElem?_set_ne
      intro hinode
      subst hinode
      exact htidy.apart htemp hi
  next =>
    refine ⟨htidy.of_kept ?_ ?_ ?_ ?_, rfl, by simp⟩
    · rfl
    · simp
    · intro i hi
      cases hi
      refine ⟨by simp, ?_⟩
      intro htarget
      exact Nat.lt_irrefl _ (htidy.target htarget)
    · intro i hi
      exact List.getElem?_append_left (htidy.target hi)

theorem writeAt [Inhabited β] {disk : Directory β} (htidy : disk.Tidy) {inode : ℕ}
    (htemp : disk.temp = some inode) (offset : ℕ) (chunk : List β) :
    (disk.writeAt inode offset chunk).Tidy ∧
      (disk.writeAt inode offset chunk).read = disk.read := by
  refine htidy.of_kept ?_ ?_ ?_ ?_
  · rfl
  · simp [Directory.writeAt]
  · intro i hi
    refine ⟨?_, htidy.apart hi⟩
    simpa [Directory.writeAt] using htidy.temp hi
  · intro i hi
    apply List.getElem?_modify_ne
    intro hinode
    subst hinode
    exact htidy.apart htemp hi

theorem rename {disk : Directory β} (htidy : disk.Tidy) {inode : ℕ}
    (htemp : disk.temp = some inode) {data : List β}
    (hdata : disk.inodes[inode]? = some data) :
    disk.rename.1.Tidy ∧ disk.rename.1.read = some data ∧
      disk.rename.2 = true := by
  unfold Directory.rename
  rw [htemp]
  refine ⟨⟨?_, ?_, ?_⟩, hdata, rfl⟩
  · intro i hi
    cases hi
  · intro i hi
    cases hi
    exact htidy.temp htemp
  · intro i hi
    cases hi

theorem deleteTemp {disk : Directory β} (htidy : disk.Tidy) (deleted : Bool) :
    (disk.deleteTemp deleted).Tidy ∧
      (disk.deleteTemp deleted).read = disk.read := by
  unfold Directory.deleteTemp
  split
  · refine ⟨⟨?_, htidy.target, ?_⟩, rfl⟩
    · intro inode hinode
      cases hinode
    · intro inode hinode
      cases hinode
  · exact ⟨htidy, rfl⟩

end Directory.Tidy

theorem overwrite_take [Inhabited β] {data : List β} {written : ℕ}
    (hwritten : written ≤ data.length) (size : ℕ) :
    Directory.overwrite written ((data.drop written).take size)
        (data.take written) =
      data.take (written + ((data.drop written).take size).length) := by
  have hlength : (data.take written).length = written := by
    rw [List.length_take]
    omega
  unfold Directory.overwrite
  rw [hlength, Nat.sub_self, List.replicate_zero, List.append_nil]
  have hrest : (data.take written).drop
      (written + ((data.drop written).take size).length) = [] := by
    apply List.drop_of_length_le
    omega
  rw [List.take_of_length_le (le_of_eq hlength), hrest, List.append_nil,
    List.take_add]
  congr 1
  rw [List.length_take, List.take_eq_take_iff]
  omega

/-- What a step of a writer that has the temporary file to itself does: the
file changes only when the writer is done, and then to all of its data. -/
structure Writer.AdvancesAlone (disk : Directory β) (writer : Writer β)
    (result : Directory β × Writer β) : Prop where
  tidy : result.1.Tidy
  owns : result.2.Owns result.1
  data : result.2.data = writer.data
  kept : result.2.stage ≠ .done true ∨ writer.stage = .done true →
    result.1.read = disk.read
  written : result.2.stage = .done true → writer.stage ≠ .done true →
    result.1.read = some writer.data

theorem Writer.advance_alone [Inhabited β] {disk : Directory β} {writer : Writer β}
    (htidy : disk.Tidy) (howns : writer.Owns disk) (event : WriterEvent) :
    writer.AdvancesAlone disk (writer.advance disk event) := by
  unfold Writer.advance
  cases hstage : writer.stage with
  | opening =>
      cases event with
      | proceed size =>
          rcases htidy.openTemp with ⟨⟨hopened, hread⟩, htemp, hempty⟩
          refine ⟨hopened, ⟨htemp, Nat.zero_le _, hempty⟩, rfl, ?_, ?_⟩
          · exact fun _ => hread
          · exact fun h => by cases h
      | fail deleted =>
          exact ⟨htidy, trivial, rfl, fun _ => rfl, fun h => by cases h⟩
  | filling inode written =>
      simp only [Writer.Owns, hstage] at howns
      rcases howns with ⟨htemp, hwritten, hcontent⟩
      cases event with
      | proceed size =>
          have hnow : (disk.writeAt inode written
              ((writer.data.drop written).take size)).inodes[inode]? =
              some (writer.data.take
                (written + ((writer.data.drop written).take size).length)) := by
            rw [← overwrite_take hwritten]
            simp [Directory.writeAt, hcontent]
          rcases htidy.writeAt htemp written
            ((writer.data.drop written).take size) with ⟨hwrote, hread⟩
          dsimp only
          split
          next hrest =>
            exact ⟨hwrote, ⟨htemp, le_of_lt hrest, hnow⟩, rfl,
              fun _ => hread, fun h => by cases h⟩
          next hall =>
            rw [List.take_of_length_le (not_lt.mp hall)] at hnow
            exact ⟨hwrote, ⟨inode, htemp, hnow⟩, rfl, fun _ => hread,
              fun h => by cases h⟩
      | fail deleted =>
          exact ⟨htidy, trivial, rfl, fun _ => rfl, fun h => by cases h⟩
  | filled =>
      simp only [Writer.Owns, hstage] at howns
      rcases howns with ⟨inode, htemp, hcontent⟩
      cases event with
      | proceed size =>
          rcases htidy.rename htemp hcontent with ⟨hrenamed, hread, hok⟩
          dsimp only
          rw [hok]
          refine ⟨hrenamed, trivial, rfl, ?_, fun _ _ => hread⟩
          intro hkept
          rcases hkept with h | h
          · exact absurd rfl h
          · rw [hstage] at h
            cases h
      | fail deleted =>
          rcases htidy.deleteTemp deleted with ⟨hdeleted, hread⟩
          exact ⟨hdeleted, trivial, rfl, fun _ => hread, fun h => by cases h⟩
  | done ok =>
      have hsame : writer.AdvancesAlone disk (disk, writer) := by
        exact ⟨htidy, howns, rfl, fun _ => rfl, fun h hnot => absurd h hnot⟩
      cases event <;> exact hsame

theorem Writer.AdvancesAlone.read {disk : Directory β} {writer : Writer β}
    {result : Directory β × Writer β}
    (hadvances : writer.AdvancesAlone disk result) :
    result.1.read = disk.read ∨ result.1.read = some writer.data := by
  by_cases hkept : result.2.stage ≠ .done true ∨ writer.stage = .done true
  · exact .inl (hadvances.kept hkept)
  · push Not at hkept
    exact .inr (hadvances.written hkept.1 hkept.2)

/-- When nothing fails, neither does a writer alone with its file. -/
theorem Writer.advance_ne_failed [Inhabited β] {disk : Directory β}
    {writer : Writer β} (howns : writer.Owns disk)
    (hstage : writer.stage ≠ .done false) (size : ℕ) :
    (writer.advance disk (.proceed size)).2.stage ≠ .done false := by
  unfold Writer.advance
  cases h : writer.stage with
  | opening => simp
  | filling inode written =>
      dsimp only
      split <;> simp
  | filled =>
      simp only [Writer.Owns, h] at howns
      rcases howns with ⟨inode, htemp, -⟩
      simp [Directory.rename, htemp]
  | done ok =>
      dsimp only
      exact hstage

/-! ### Pools in which one process writes at a time -/

section

variable {α : Type*} {writer? : α → Option (Writer β)}

/-- At most one process is writing, and the temporary file is its own. -/
structure WritesAlone (writer? : α → Option (Writer β)) (pool : List α)
    (disk : Directory β) : Prop where
  tidy : disk.Tidy
  owns : ∀ ⦃n : ℕ⦄ ⦃a : α⦄ ⦃writer : Writer β⦄, pool[n]? = some a →
    writer? a = some writer → writer.Owns disk
  alone : ∀ ⦃n m : ℕ⦄ ⦃a b : α⦄, pool[n]? = some a → pool[m]? = some b →
    writer? a ≠ none → writer? b ≠ none → n = m

namespace WritesAlone

variable {pool : List α} {disk : Directory β}

theorem of_writers (halone : WritesAlone writer? pool disk) {pool' : List α}
    (hold : ∀ ⦃n : ℕ⦄ ⦃a : α⦄, pool'[n]? = some a → writer? a ≠ none →
      pool[n]? = some a) : WritesAlone writer? pool' disk where
  tidy := halone.tidy
  owns n a writer ha hwriter :=
    halone.owns (hold ha (by simp [hwriter])) hwriter
  alone n m a b ha hb hwriter hwriter' :=
    halone.alone (hold ha hwriter) (hold hb hwriter') hwriter hwriter'

theorem concat (halone : WritesAlone writer? pool disk) {new : α}
    (hnew : writer? new = none) : WritesAlone writer? (pool ++ [new]) disk := by
  apply halone.of_writers
  intro n a ha hwriter
  rcases getElem?_concat_cases ha with ha | ⟨-, rfl⟩
  · exact ha
  · exact absurd hnew hwriter

/-- A step of a process that is not writing afterwards. -/
theorem set_none (halone : WritesAlone writer? pool disk) {new : α}
    (hnew : writer? new = none) (n : ℕ) :
    WritesAlone writer? (pool.set n new) disk := by
  apply halone.of_writers
  intro m a ha hwriter
  rcases getElem?_set_cases ha with ⟨-, rfl⟩ | ⟨-, ha⟩
  · exact absurd hnew hwriter
  · exact ha

theorem start (halone : WritesAlone writer? pool disk)
    (hnone : ∀ a ∈ pool, writer? a = none) {new : α} {data : List β}
    (hnew : writer? new = some { data := data }) (n : ℕ) :
    WritesAlone writer? (pool.set n new) disk := by
  have hself : ∀ ⦃m : ℕ⦄ ⦃a : α⦄, (pool.set n new)[m]? = some a →
      writer? a ≠ none → m = n ∧ a = new := by
    intro m a ha hwriter
    rcases getElem?_set_cases ha with hself | ⟨-, ha⟩
    · exact hself
    · exact absurd (hnone a (List.mem_of_getElem? ha)) hwriter
  constructor
  · exact halone.tidy
  · intro m a writer ha hwriter
    rcases hself ha (by simp [hwriter]) with ⟨-, rfl⟩
    rw [hnew, Option.some.injEq] at hwriter
    subst hwriter
    trivial
  · intro m k a b ha hb hwriter hwriter'
    rw [(hself ha hwriter).1, (hself hb hwriter').1]

/-- A step of the process that is writing. -/
theorem advance [Inhabited β] (halone : WritesAlone writer? pool disk) {n : ℕ}
    {old new : α} {writer : Writer β} (hold : pool[n]? = some old)
    (hwriter : writer? old = some writer) (event : WriterEvent)
    (hnew : ∀ writer', writer? new = some writer' →
      writer' = (writer.advance disk event).2) :
    WritesAlone writer? (pool.set n new) (writer.advance disk event).1 := by
  have hadvances := Writer.advance_alone halone.tidy
    (halone.owns hold hwriter) event
  have hself : ∀ ⦃m : ℕ⦄ ⦃a : α⦄, (pool.set n new)[m]? = some a →
      writer? a ≠ none → m = n ∧ a = new := by
    intro m a ha hwriter'
    rcases getElem?_set_cases ha with hself | ⟨hm, ha⟩
    · exact hself
    · exact absurd (halone.alone ha hold hwriter' (by simp [hwriter])) hm
  constructor
  · exact hadvances.tidy
  · intro m a writer' ha hwriter'
    rcases hself ha (by simp [hwriter']) with ⟨-, rfl⟩
    rw [hnew writer' hwriter']
    exact hadvances.owns
  · intro m k a b ha hb hwriter' hwriter''
    rw [(hself ha hwriter').1, (hself hb hwriter'').1]

end WritesAlone

end

end GoP2P
