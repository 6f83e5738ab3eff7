import GoP2P.RegistrySaving

/-!
# The peers file

The rename gives the file's name to whatever the temporary file holds at that
moment.  While one execution of `saveNow` has the temporary file to itself this
is a whole snapshot; a second one truncates it under the first.
-/

namespace GoP2P.Node

namespace RegistrySaving

variable {β : Type*} [Inhabited β] {codec : PeersCodec β}

/-- The content is a whole serialisation of a state the registry was in. -/
def Past (codec : PeersCodec β) (s : RegistrySaving β) (content : List β) :
    Prop :=
  ∃ past ∈ s.history, ∃ order, past.Lists order ∧
    content = codec.marshal order

omit [Inhabited β] in
theorem Past.mono {s s' : RegistrySaving β} {content : List β}
    (hpast : s.Past codec content) (hhistory : s.history ⊆ s'.history) :
    s'.Past codec content := by
  rcases hpast with ⟨past, hmem, hserialised⟩
  exact ⟨past, hhistory hmem, hserialised⟩

theorem next_history (s : RegistrySaving β) (action : SavingAction) :
    s.history ⊆ (s.next codec action).history ∧
      (s.registry ∈ s.history →
        (s.next codec action).registry ∈ (s.next codec action).history) := by
  by_cases hcall : ∃ call, action = .operate call
  · rcases hcall with ⟨call, rfl⟩
    exact ⟨List.subset_cons_self _ _, fun _ => List.mem_cons_self⟩
  · push Not at hcall
    rcases s.next_registry hcall with ⟨hregistry, hhistory, -⟩
    rw [hregistry, hhistory]
    exact ⟨List.Subset.refl _, id⟩

theorem next_found (s : RegistrySaving β) (action : SavingAction) :
    (s.next codec action).found = s.found := by
  have heffect : Effect codec s action _ := s.next_effect action
  generalize s.next codec action = s' at heffect ⊢
  cases heffect <;> rfl

structure FileWhole (codec : PeersCodec β) (s : RegistrySaving β) : Prop where
  alone : WritesAlone Saver.writer? s.savers s.disk
  current : s.registry ∈ s.history
  snapshots : ∀ ⦃position : ℕ⦄ ⦃saver : Saver β⦄ ⦃writer : Writer β⦄,
    s.savers[position]? = some saver → saver.stage = .saving writer →
      s.Past codec writer.data
  file : ∀ ⦃content⦄, s.disk.read = some content →
    s.Past codec content ∨ s.found = some content

theorem FileWhole.next {s : RegistrySaving β} (hwhole : s.FileWhole codec)
    {action : SavingAction} (henabled : s.Enabled action)
    (hapart : s.SavesApart action) : (s.next codec action).FileWhole codec := by
  have hhistory : s.history ⊆ (s.next codec action).history ∧ _ :=
    s.next_history action
  have halone : ∀ ⦃position : ℕ⦄ ⦃isClose : Bool⦄ ⦃writer : Writer β⦄,
      s.savers[position]? = some ⟨isClose, .saving writer⟩ → ∀ event,
        writer.AdvancesAlone s.disk (writer.advance s.disk event) := by
    intro position isClose writer hsaving event
    exact Writer.advance_alone hwhole.alone.tidy
      (hwhole.alone.owns hsaving rfl) event
  constructor
  · exact next_alone hwhole.alone hapart
  · exact hhistory.2 hwhole.current
  · intro position saver writer hsaver hstage
    refine Past.mono ?_ hhistory.1
    cases next_savers hsaver with
    | kept hold => exact hwhole.snapshots hold hstage
    | timer hnew =>
        rw [hnew] at hstage
        cases hstage
    | close haction hnew =>
        rw [hnew] at hstage
        cases hstage
    | moved hold hmoves =>
        rw [hstage] at hmoves
        cases hmoves with
        | locked => exact ⟨s.registry, hwhole.current, _, henabled, rfl⟩
        | wrote hbusy =>
            rw [(halone hold _).data]
            exact hwhole.snapshots hold rfl
  · intro content hcontent
    rw [next_found]
    refine Or.imp_left (Past.mono · hhistory.1) ?_
    have hdisk : (s.next codec action).disk = s.disk ∨ _ :=
      s.next_disk action
    rcases hdisk with hdisk | ⟨position, event, isClose, writer, -, hsaving,
      hdisk⟩
    · rw [hdisk] at hcontent
      exact hwhole.file hcontent
    · rw [hdisk] at hcontent
      rcases (halone hsaving event).read with hread | hread
      · rw [hread] at hcontent
        exact hwhole.file hcontent
      · rw [hread, Option.some.injEq] at hcontent
        subst hcontent
        exact .inl (hwhole.snapshots hsaving rfl)

/-- In every run in which no two executions of `saveNow` overlap, the file is
absent or a whole serialisation of a state the registry was in, provided that
the file it found at the start was. -/
theorem peers_file_whole (codec : PeersCodec β) {s : RegistrySaving β}
    (hrun : (machine codec).Run SavesApart s)
    (hfound : ∀ content, s.found = some content → s.Past codec content)
    {content : List β} (hcontent : s.disk.read = some content) :
    s.Past codec content := by
  have hwhole : s.FileWhole codec := by
    apply hrun.invariant
    · intro start hinitial
      rcases hinitial with ⟨registry, disk, htidy, -, rfl⟩
      refine ⟨⟨htidy, ?_, ?_⟩, List.mem_cons_self, ?_, ?_⟩
      · intro n saver writer hsaver
        cases hsaver
      · intro n m saver saver' hsaver
        cases hsaver
      · intro position saver writer hsaver
        cases hsaver
      · intro content hcontent
        exact .inr hcontent
    · intro before action _ hbefore henabled hapart
      exact hbefore.next henabled hapart
  exact (hwhole.file hcontent).elim id (hfound content)

/-! ### Sample runs -/

/-- The callback saves the peer. -/
def sampleSaved : List SavingAction :=
  sampleAdded ++ [.lock 0 [samplePeer 1], .write 0 (.proceed 0),
    .write 0 (.proceed 1), .write 0 (.proceed 0)]

theorem peers_file_whole_saved :
    let s := (machine samplePeersCodec).replay {} sampleSaved
    s.disk.read = some [samplePeer 1] ∧
      s.Past samplePeersCodec [samplePeer 1] := by
  have hreplays : (machine samplePeersCodec).Replays SavesApart {}
      sampleSaved := by decide
  refine ⟨by decide, ?_⟩
  exact peers_file_whole samplePeersCodec
    (Machine.Run.replay (.start sample_initial) hreplays)
    (fun _ hnone => by cases hnone) (by decide)

/-- `Close` truncates and refills the temporary file while the callback is
about to rename it. -/
def sampleTorn : List SavingAction :=
  sampleAdded ++
    [.operate (.addPeer 1 (samplePeer 2)), .scheduleSave, .callClose, .flag 2,
      .lock 0 [samplePeer 1, samplePeer 2], .write 0 (.proceed 0),
      .write 0 (.proceed 2), .lock 2 [samplePeer 2, samplePeer 1],
      .write 2 (.proceed 0), .write 2 (.proceed 1), .write 0 (.proceed 0)]

theorem overlapping_saves_tear_file :
    ∃ s, (machine samplePeersCodec).Reachable s ∧
      s.disk.read = some [samplePeer 2] ∧
      ¬s.Past samplePeersCodec [samplePeer 2] := by
  have hreplays : (machine samplePeersCodec).Replays (fun _ _ => True) {}
      sampleTorn := by decide
  refine ⟨_, Machine.Run.replay (.start sample_initial) hreplays, by decide, ?_⟩
  intro hpast
  rcases hpast with ⟨past, hmem, order, hlists, hcontent⟩
  have hother : ∀ past ∈ ((machine samplePeersCodec).replay {}
      sampleTorn).history,
      past.peers.entries.map Sigma.snd ≠ ([samplePeer 2] : List Peer) := by
    decide
  apply hother past hmem
  rw [← hlists, hcontent]
  rfl

end RegistrySaving

end GoP2P.Node
