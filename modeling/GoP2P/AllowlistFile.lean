import GoP2P.AtomicWrite
import GoP2P.PeerRegistry
import GoP2P.Runs

/-!
# The allowlist file

`AllowPublicKey` and `RevokePublicKey` change the set under its lock, take a
snapshot of it under a read lock and write that to the sidecar file under no
lock at all.  Every change is followed by a snapshot that has it, so the last
snapshot is the right one, but it is the last one written only if snapshots
reach the file in the order they were taken.
-/

namespace GoP2P.Node

/-- How keys are written to the file.  A key that is not `valid` does not
survive this; with JSON these are the strings that are not UTF-8. -/
structure AllowlistCodec (β : Type*) where
  marshal : List Bytes → List β
  unmarshal : List β → Option (List Bytes)
  valid : Bytes → Bool
  roundTrip : ∀ keys, (∀ key ∈ keys, valid key = true) →
    unmarshal (marshal keys) = some keys
  valid_of_unmarshal : ∀ content keys, unmarshal content = some keys →
    ∀ key ∈ keys, valid key = true

/-- The loop of `loadAllowedPublicKeys`. -/
def storeKeys (keys : List Bytes) : Finset Bytes :=
  keys.foldl
    (fun allowed key => if key = [] then allowed else insert key allowed) ∅

theorem mem_storeKeys_iff (keys : List Bytes) (key : Bytes) :
    key ∈ storeKeys keys ↔ key ∈ keys ∧ key ≠ [] := by
  unfold storeKeys
  induction keys using List.reverseRecOn with
  | nil => simp
  | append_singleton rest last ih =>
      rw [List.foldl_concat, List.mem_append, List.mem_singleton]
      split_ifs with hlast
      · rw [ih]
        constructor
        · rintro ⟨hrest, hne⟩
          exact ⟨.inl hrest, hne⟩
        · rintro ⟨hrest | rfl, hne⟩
          · exact ⟨hrest, hne⟩
          · exact absurd hlast hne
      · rw [Finset.mem_insert, ih]
        constructor
        · rintro (rfl | ⟨hrest, hne⟩)
          · exact ⟨.inr rfl, hlast⟩
          · exact ⟨.inl hrest, hne⟩
        · rintro ⟨hrest | rfl, hne⟩
          · exact .inr ⟨hrest, hne⟩
          · exact .inl rfl

/-- The allowlist of a new registry: empty if the file is absent or
unreadable. -/
def loadAllowedPublicKeys {β : Type*} (codec : AllowlistCodec β)
    (disk : Directory β) : Finset Bytes :=
  ((disk.read.bind codec.unmarshal).map storeKeys).getD ∅

/-! ### The machine -/

/-- Where a call of `AllowPublicKey` or `RevokePublicKey` stands after it has
changed the set. -/
inductive AllowlistStage (β : Type*) where
  | updated
  | saving (writer : Writer β)
  | returned (ok : Bool)
  deriving DecidableEq

def AllowlistStage.writer? {β : Type*} : AllowlistStage β → Option (Writer β)
  | .saving writer => some writer
  | _ => none

def AllowlistStage.ofWriter {β : Type*} (writer : Writer β) :
    AllowlistStage β :=
  match writer.stage with
  | .done ok => .returned ok
  | _ => .saving writer

structure AllowlistSaving (β : Type*) where
  registry : PeerRegistry := {}
  calls : List (AllowlistStage β) := []
  disk : Directory β := {}

inductive AllowlistAction where
  | allow (publicKey : Bytes)
  | revoke (publicKey : Bytes)
  | snapshot (call : ℕ) (keys : List Bytes)
  | write (call : ℕ) (event : WriterEvent)
  deriving DecidableEq

namespace AllowlistSaving

variable {β : Type*}

def snapshot (codec : AllowlistCodec β) (s : AllowlistSaving β) (call : ℕ)
    (keys : List Bytes) : AllowlistSaving β :=
  match s.calls[call]? with
  | some .updated =>
      { s with
        calls := s.calls.set call (.saving { data := codec.marshal keys }) }
  | _ => s

def write [Inhabited β] (s : AllowlistSaving β) (call : ℕ)
    (event : WriterEvent) : AllowlistSaving β :=
  match s.calls[call]? with
  | some (.saving writer) =>
      let result := writer.advance s.disk event
      { s with
        disk := result.1
        calls := s.calls.set call (.ofWriter result.2) }
  | _ => s

def next [Inhabited β] (codec : AllowlistCodec β) (s : AllowlistSaving β) :
    AllowlistAction → AllowlistSaving β
  | .allow publicKey =>
      { s with
        registry := s.registry.allowPublicKey publicKey
        calls := s.calls ++ [.updated] }
  | .revoke publicKey =>
      { s with
        registry := s.registry.revokePublicKey publicKey
        calls := s.calls ++ [.updated] }
  | .snapshot call keys => s.snapshot codec call keys
  | .write call event => s.write call event

/-- A snapshot is the sorted list of the keys in the set. -/
def Enabled (s : AllowlistSaving β) : AllowlistAction → Prop
  | .snapshot _ keys =>
      keys.toFinset = s.registry.allowedPublicKeys ∧ keys.Pairwise (· < ·)
  | _ => True

def Initial (codec : AllowlistCodec β) (s : AllowlistSaving β) : Prop :=
  ∃ registry disk, disk.Tidy ∧
    registry.allowedPublicKeys = loadAllowedPublicKeys codec disk ∧
    s = { registry := registry, disk := disk }

def machine [Inhabited β] (codec : AllowlistCodec β) :
    Machine (AllowlistSaving β) AllowlistAction where
  initial := Initial codec
  enabled := Enabled
  next := next codec

instance (s : AllowlistSaving β) (action : AllowlistAction) :
    Decidable (s.Enabled action) := by
  unfold Enabled
  split <;> infer_instance

instance [Inhabited β] (codec : AllowlistCodec β) (s : AllowlistSaving β)
    (action : AllowlistAction) :
    Decidable ((machine codec).enabled s action) :=
  inferInstanceAs (Decidable (s.Enabled action))

/-! ### Snapshots in order -/

def NoneSaving (s : AllowlistSaving β) : Prop :=
  ∀ call ∈ s.calls, call.writer? = none

/-- No call has changed the set since the last snapshot. -/
def NoneUpdated (s : AllowlistSaving β) : Prop :=
  ¬∃ call ∈ s.calls, call = .updated

/-- The keys can be written, a snapshot is taken when no earlier one is still
being written, and no operation on the disk fails. -/
def InOrder (codec : AllowlistCodec β) (s : AllowlistSaving β) :
    AllowlistAction → Prop
  | .allow publicKey => publicKey ≠ [] ∧ codec.valid publicKey = true
  | .revoke _ => True
  | .snapshot _ _ => s.NoneSaving
  | .write _ event => ∃ size, event = .proceed size

instance [DecidableEq β] (s : AllowlistSaving β) : Decidable s.NoneSaving :=
  inferInstanceAs (Decidable (∀ call ∈ s.calls, call.writer? = none))

instance [DecidableEq β] (codec : AllowlistCodec β) (s : AllowlistSaving β)
    (action : AllowlistAction) : Decidable (s.InOrder codec action) :=
  match action with
  | .allow _ => inferInstanceAs (Decidable (_ ∧ _))
  | .revoke _ => .isTrue trivial
  | .snapshot _ _ => inferInstanceAs (Decidable s.NoneSaving)
  | .write _ (.proceed size) => .isTrue ⟨size, rfl⟩
  | .write _ (.fail _) => .isFalse (by simp [InOrder])

structure Persisted (codec : AllowlistCodec β) (s : AllowlistSaving β) :
    Prop where
  alone : WritesAlone AllowlistStage.writer? s.calls s.disk
  keys : ∀ key ∈ s.registry.allowedPublicKeys,
    key ≠ [] ∧ codec.valid key = true
  snapshots : ∀ ⦃call : ℕ⦄ ⦃writer : Writer β⦄,
    s.calls[call]? = some (.saving writer) →
      (∀ ok, writer.stage ≠ .done ok) ∧
        ∃ keys : List Bytes, writer.data = codec.marshal keys ∧
          (∀ key ∈ keys, key ≠ [] ∧ codec.valid key = true) ∧
          (s.NoneUpdated → keys.toFinset = s.registry.allowedPublicKeys)
  settled : s.NoneUpdated → s.NoneSaving →
    loadAllowedPublicKeys codec s.disk = s.registry.allowedPublicKeys

theorem load_of_read {codec : AllowlistCodec β} {disk : Directory β}
    {keys : List Bytes}
    (hkeys : ∀ key ∈ keys, key ≠ [] ∧ codec.valid key = true)
    (hread : disk.read = some (codec.marshal keys)) :
    loadAllowedPublicKeys codec disk = keys.toFinset := by
  have hvalid : ∀ key ∈ keys, codec.valid key = true := fun key hkey =>
    (hkeys key hkey).2
  unfold loadAllowedPublicKeys
  rw [hread, Option.bind_some, codec.roundTrip keys hvalid, Option.map_some,
    Option.getD_some]
  ext key
  rw [mem_storeKeys_iff, List.mem_toFinset, and_iff_left_iff_imp]
  exact fun hkey => (hkeys key hkey).1

theorem load_valid {codec : AllowlistCodec β} {disk : Directory β} {key : Bytes}
    (hkey : key ∈ loadAllowedPublicKeys codec disk) :
    key ≠ [] ∧ codec.valid key = true := by
  unfold loadAllowedPublicKeys at hkey
  cases hkeys : disk.read.bind codec.unmarshal with
  | none => simp [hkeys] at hkey
  | some keys =>
      obtain ⟨content, -, hcontent⟩ := Option.bind_eq_some_iff.mp hkeys
      rw [hkeys, Option.map_some, Option.getD_some, mem_storeKeys_iff] at hkey
      exact ⟨hkey.2, codec.valid_of_unmarshal content keys hcontent key hkey.1⟩

theorem ofWriter_cases (writer : Writer β) :
    (∃ ok, writer.stage = .done ok ∧
      AllowlistStage.ofWriter writer = .returned ok) ∨
      ((∀ ok, writer.stage ≠ .done ok) ∧
        AllowlistStage.ofWriter writer = .saving writer) := by
  unfold AllowlistStage.ofWriter
  cases hstage : writer.stage with
  | done ok => exact .inl ⟨ok, rfl, rfl⟩
  | _ => exact .inr ⟨by simp, rfl⟩

variable {codec : AllowlistCodec β}

/-- The set has changed, and the call has yet to take its snapshot. -/
theorem Persisted.update {s : AllowlistSaving β}
    (hpersisted : s.Persisted codec) {registry : PeerRegistry}
    (hkeys : ∀ key ∈ registry.allowedPublicKeys,
      key ≠ [] ∧ codec.valid key = true) :
    ({ s with registry := registry, calls := s.calls ++ [.updated] } :
      AllowlistSaving β).Persisted codec := by
  have hupdated : ∃ call ∈ s.calls ++ [AllowlistStage.updated],
      call = .updated := ⟨.updated, by simp, rfl⟩
  constructor
  · exact hpersisted.alone.concat rfl
  · exact hkeys
  · intro call writer hsaving
    rcases getElem?_concat_cases hsaving with hold | ⟨-, hnew⟩
    · rcases hpersisted.snapshots hold with ⟨hbusy, keys, hdata, hvalid, -⟩
      exact ⟨hbusy, keys, hdata, hvalid, fun hnone => absurd hupdated hnone⟩
    · cases hnew
  · intro hnone
    exact absurd hupdated hnone

theorem Persisted.snapshot {s : AllowlistSaving β}
    (hpersisted : s.Persisted codec) {call : ℕ} {keys : List Bytes}
    (hkeys : keys.toFinset = s.registry.allowedPublicKeys)
    (hnone : s.NoneSaving) : (s.snapshot codec call keys).Persisted codec := by
  unfold AllowlistSaving.snapshot
  split
  next hupdated =>
    have hlt := (List.getElem?_eq_some_iff.mp hupdated).1
    constructor
    · exact hpersisted.alone.start hnone rfl _
    · exact hpersisted.keys
    · intro other writer hsaving
      rcases getElem?_set_cases hsaving with ⟨-, hnew⟩ | ⟨-, hold⟩
      · cases hnew
        refine ⟨by simp, keys, rfl, ?_, fun _ => hkeys⟩
        intro key hkey
        apply hpersisted.keys
        rw [← hkeys]
        exact List.mem_toFinset.mpr hkey
      · have := hnone _ (List.mem_of_getElem? hold)
        cases this
    · intro _ hidle
      have := hidle _ (List.mem_set hlt _)
      cases this
  next => exact hpersisted

variable [Inhabited β]

/-- A step of a call that is writing; what is left to show is what the file
holds if this was the last step. -/
theorem Persisted.of_advance {s : AllowlistSaving β}
    (hpersisted : s.Persisted codec) {call : ℕ} {writer : Writer β}
    (hsaving : s.calls[call]? = some (.saving writer)) (event : WriterEvent)
    {stage : AllowlistStage β} (hstage : stage ≠ .updated)
    (hwriter : ∀ writer', stage.writer? = some writer' →
      writer' = (writer.advance s.disk event).2 ∧
        ∀ ok, writer'.stage ≠ .done ok)
    (hdone : s.NoneUpdated → stage.writer? = none →
      loadAllowedPublicKeys codec (writer.advance s.disk event).1 =
        s.registry.allowedPublicKeys) :
    ({ s with
        disk := (writer.advance s.disk event).1
        calls := s.calls.set call stage } :
      AllowlistSaving β).Persisted codec := by
  have hadvances := Writer.advance_alone hpersisted.alone.tidy
    (hpersisted.alone.owns hsaving rfl) event
  have hnone : (∃ x ∈ s.calls.set call stage, x = .updated) ↔
      ∃ x ∈ s.calls, x = .updated :=
    exists_mem_set_iff hsaving (iff_of_false hstage (by simp))
  constructor
  · apply hpersisted.alone.advance hsaving rfl
    intro writer' hnew
    exact (hwriter writer' hnew).1
  · exact hpersisted.keys
  · intro other writer' hother
    simp only [NoneUpdated, hnone]
    rcases getElem?_set_cases hother with ⟨-, hnew⟩ | ⟨-, hold⟩
    · subst hnew
      rcases hwriter writer' rfl with ⟨rfl, hbusy⟩
      rw [hadvances.data]
      exact ⟨hbusy, (hpersisted.snapshots hsaving).2⟩
    · exact hpersisted.snapshots hold
  · intro hupdated hidle
    simp only [NoneUpdated, hnone] at hupdated
    have hlt := (List.getElem?_eq_some_iff.mp hsaving).1
    exact hdone hupdated (hidle stage (List.mem_set hlt stage))

theorem Persisted.write {s : AllowlistSaving β}
    (hpersisted : s.Persisted codec) (call : ℕ) (size : ℕ) :
    (s.write call (.proceed size)).Persisted codec := by
  unfold AllowlistSaving.write
  split
  next writer hsaving =>
    have howns := hpersisted.alone.owns hsaving rfl
    rcases hpersisted.snapshots hsaving with
      ⟨hbusy, keys, hdata, hkeys, hlatest⟩
    apply hpersisted.of_advance hsaving
    · rcases ofWriter_cases (writer.advance s.disk (.proceed size)).2 with
        ⟨ok, -, hstage⟩ | ⟨-, hstage⟩ <;> simp [hstage]
    · intro writer' hwriter
      rcases ofWriter_cases (writer.advance s.disk (.proceed size)).2 with
        ⟨ok, -, hstage⟩ | ⟨hwrites, hstage⟩
      · rw [hstage] at hwriter
        cases hwriter
      · rw [hstage] at hwriter
        cases hwriter
        exact ⟨rfl, hwrites⟩
    · intro hupdated hwriter
      have hadvances := Writer.advance_alone hpersisted.alone.tidy howns
        (.proceed size)
      have hfine := Writer.advance_ne_failed howns (hbusy false) size
      rcases ofWriter_cases (writer.advance s.disk (.proceed size)).2 with
        ⟨ok, hdone, -⟩ | ⟨-, hstage⟩
      · cases ok with
        | false => exact absurd hdone hfine
        | true =>
            have hread := hadvances.written hdone (hbusy true)
            rw [hdata] at hread
            rw [load_of_read hkeys hread]
            exact hlatest hupdated
      · rw [hstage] at hwriter
        cases hwriter
  next => exact hpersisted

theorem Persisted.next {s : AllowlistSaving β} (hpersisted : s.Persisted codec)
    {action : AllowlistAction} (henabled : s.Enabled action)
    (horder : s.InOrder codec action) :
    (s.next codec action).Persisted codec := by
  cases action with
  | allow publicKey =>
      apply hpersisted.update
      intro key hkey
      rcases Finset.mem_insert.mp hkey with rfl | hkey
      · exact horder
      · exact hpersisted.keys key hkey
  | revoke publicKey =>
      apply hpersisted.update
      intro key hkey
      exact hpersisted.keys key (Finset.mem_of_mem_erase hkey)
  | snapshot call keys => exact hpersisted.snapshot henabled.1 horder
  | write call event =>
      rcases horder with ⟨size, rfl⟩
      exact hpersisted.write call size

/-! ### Every run -/

/-- In every run in which snapshots are written one after the other and the
disk does not fail, once all calls have returned a new registry loads exactly
the keys that are allowed in memory. -/
theorem allowlist_file_current (codec : AllowlistCodec β)
    {s : AllowlistSaving β}
    (hrun : (machine codec).Run (InOrder codec) s)
    (hreturned : ∀ call ∈ s.calls, ∃ ok, call = .returned ok) :
    loadAllowedPublicKeys codec s.disk = s.registry.allowedPublicKeys := by
  have hpersisted : s.Persisted codec := by
    apply hrun.invariant
    · intro start hinitial
      rcases hinitial with ⟨registry, disk, htidy, hloaded, rfl⟩
      refine ⟨⟨htidy, ?_, ?_⟩, ?_, ?_, ?_⟩
      · intro n call writer hcall
        cases hcall
      · intro n m call call' hcall
        cases hcall
      · intro key hkey
        dsimp only at hkey
        rw [hloaded] at hkey
        exact load_valid hkey
      · intro call writer hcall
        cases hcall
      · intro _ _
        exact hloaded.symm
    · intro before action _ hbefore henabled horder
      exact hbefore.next henabled horder
  apply hpersisted.settled
  · intro hupdated
    rcases hupdated with ⟨call, hmem, rfl⟩
    rcases hreturned _ hmem with ⟨ok, hok⟩
    cases hok
  · intro call hmem
    rcases hreturned call hmem with ⟨ok, rfl⟩
    rfl

/-! ### Sample runs -/

/-- A file of keys. -/
def sampleAllowlistCodec : AllowlistCodec Bytes where
  marshal := id
  unmarshal := some
  valid _ := true
  roundTrip _ _ := rfl
  valid_of_unmarshal _ _ _ _ _ := rfl

theorem sampleAllowlist_initial : Initial sampleAllowlistCodec {} := by
  exact ⟨{}, {}, Directory.tidy_empty, rfl, rfl⟩

/-- The three steps that write a snapshot. -/
def sampleWrites (call : ℕ) : List AllowlistAction :=
  List.replicate 3 (.write call (.proceed 1))

/-- A key is allowed while another call has just taken its snapshot, and is
saved after that one. -/
def sampleInOrder : List AllowlistAction :=
  [.allow [1], .snapshot 0 [[1]], .allow [2]] ++ sampleWrites 0 ++
    .snapshot 1 [[1], [2]] :: .write 1 (.proceed 1) :: sampleWrites 1

theorem allowlist_file_current_in_order :
    let s := (machine sampleAllowlistCodec).replay {} sampleInOrder
    s.registry.allowedPublicKeys = {[1], [2]} ∧
      loadAllowedPublicKeys sampleAllowlistCodec s.disk =
        s.registry.allowedPublicKeys := by
  have hreplays : (machine sampleAllowlistCodec).Replays
      (InOrder sampleAllowlistCodec) {} sampleInOrder := by decide
  refine ⟨by decide, ?_⟩
  exact allowlist_file_current sampleAllowlistCodec
    (Machine.Run.replay (.start sampleAllowlist_initial) hreplays)
    (by decide)

/-- A key is allowed and revoked, and the older of the two snapshots is written
last. -/
def sampleOvertaken : List AllowlistAction :=
  [.allow [1], .snapshot 0 [[1]], .revoke [1], .snapshot 1 []] ++
    sampleWrites 1 ++ sampleWrites 0

theorem revoked_key_loaded_again :
    ∃ s, (machine sampleAllowlistCodec).Reachable s ∧
      (∀ call ∈ s.calls, call = .returned true) ∧
      s.registry.allowedPublicKeys = ∅ ∧
      loadAllowedPublicKeys sampleAllowlistCodec s.disk = {[1]} := by
  have hreplays : (machine sampleAllowlistCodec).Replays (fun _ _ => True) {}
      sampleOvertaken := by decide
  exact ⟨_, Machine.Run.replay (.start sampleAllowlist_initial) hreplays,
    by decide, by decide, by decide⟩

end AllowlistSaving

end GoP2P.Node
