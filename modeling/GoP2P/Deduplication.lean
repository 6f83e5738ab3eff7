import GoP2P.Transport

/-!
# What the deduplicator answers

An entry that has outlived the window is deleted by the query that finds it or
by the sweep, whichever comes first.  As long as time does not go back neither
deletes what the other would still count, so for a window of positive length
the answers are those of the history of marks alone.  A window of length zero
or less never expires for the query and always for the sweep.
-/

namespace GoP2P.Node

def newMessageDeduplicator (ttl : ℤ) : MessageDeduplicator := { ttl := ttl }

namespace MessageDeduplicator

/-! ### Single calls -/

theorem isDuplicate_ttl (d : MessageDeduplicator) (now : Time)
    (msgID : Bytes) : (d.isDuplicate now msgID).2.ttl = d.ttl := by
  unfold isDuplicate
  split
  · rfl
  · split <;> rfl

theorem lookup_isDuplicate_of_ne (d : MessageDeduplicator) (now : Time)
    {msgID other : Bytes} (hother : other ≠ msgID) :
    (d.isDuplicate now msgID).2.seen.lookup other = d.seen.lookup other := by
  unfold isDuplicate
  split
  · rfl
  · split
    · exact Finmap.lookup_erase_ne hother
    · rfl

/-- A message passes only if the last entry for its ID is older than the
window. -/
theorem old_of_not_isDuplicate {d : MessageDeduplicator} {now : Time}
    {msgID : Bytes} (hnew : (d.isDuplicate now msgID).1 = false)
    {seenAt : Time} (hseen : d.seen.lookup msgID = some seenAt) :
    d.ttl < now - seenAt := by
  unfold isDuplicate at hnew
  rw [hseen] at hnew
  dsimp only at hnew
  split at hnew
  next hexpired => exact hexpired.2
  next => cases hnew

theorem isDuplicate_snd_of_true {d : MessageDeduplicator} {now : Time}
    {msgID : Bytes} (hduplicate : (d.isDuplicate now msgID).1 = true) :
    (d.isDuplicate now msgID).2 = d := by
  unfold isDuplicate at hduplicate ⊢
  cases hseen : d.seen.lookup msgID with
  | none => rfl
  | some seenAt =>
      by_cases hexpired : d.ttl > 0 ∧ now - seenAt > d.ttl
      · simp [hseen, hexpired] at hduplicate
      · simp only [if_neg hexpired]

theorem lookup_cleanup_eq_some_iff {d : MessageDeduplicator} {now : Time}
    {msgID : Bytes} {seenAt : Time} :
    (d.cleanup now).seen.lookup msgID = some seenAt ↔
      d.seen.lookup msgID = some seenAt ∧ now - seenAt ≤ d.ttl := by
  unfold cleanup
  rw [lookup_sweep, Option.filter_eq_some_iff]
  simp

theorem lookup_cleanup {d : MessageDeduplicator} {now : Time} {msgID : Bytes}
    {seenAt : Time} (hseen : d.seen.lookup msgID = some seenAt)
    (hfresh : now - seenAt ≤ d.ttl) :
    (d.cleanup now).seen.lookup msgID = some seenAt :=
  lookup_cleanup_eq_some_iff.mpr ⟨hseen, hfresh⟩

theorem isDuplicate_iff {d : MessageDeduplicator} {now : Time}
    {msgID : Bytes} :
    (d.isDuplicate now msgID).1 = true ↔
      ∃ seenAt, d.seen.lookup msgID = some seenAt ∧
        ¬ (d.ttl > 0 ∧ now - seenAt > d.ttl) := by
  unfold isDuplicate
  cases hlookup : d.seen.lookup msgID with
  | none => simp
  | some seenAt =>
      by_cases hexpired : d.ttl > 0 ∧ now - seenAt > d.ttl
      · simp only [if_pos hexpired, Option.some.injEq, exists_eq_left']
        exact iff_of_false (by simp) (fun hlive => hlive hexpired)
      · simp only [if_neg hexpired, Option.some.injEq, exists_eq_left', true_iff]
        exact hexpired

theorem lookup_of_lookup_isDuplicate {d : MessageDeduplicator} {now : Time}
    {msgID other : Bytes} {seenAt : Time}
    (hlookup : (d.isDuplicate now msgID).2.seen.lookup other = some seenAt) :
    d.seen.lookup other = some seenAt := by
  unfold isDuplicate at hlookup
  split at hlookup
  · exact hlookup
  · split at hlookup
    · exact (lookup_of_lookup_erase hlookup).2
    · exact hlookup

theorem lookup_isDuplicate_of_fresh {d : MessageDeduplicator} {now : Time}
    {msgID other : Bytes} {seenAt : Time}
    (hlookup : d.seen.lookup other = some seenAt)
    (hfresh : now - seenAt ≤ d.ttl) :
    (d.isDuplicate now msgID).2.seen.lookup other = some seenAt := by
  by_cases hother : other = msgID
  · subst hother
    have hduplicate : (d.isDuplicate now other).1 = true := by
      rw [isDuplicate_iff]
      refine ⟨seenAt, hlookup, ?_⟩
      rintro ⟨-, hexpired⟩
      linarith
    rw [isDuplicate_snd_of_true hduplicate]
    exact hlookup
  · rw [d.lookup_isDuplicate_of_ne now hother]
    exact hlookup

/-! ### Histories -/

inductive DedupCall where
  | mark (msgID : Bytes)
  | isDuplicate (msgID : Bytes)
  | cleanup
  deriving DecidableEq, Repr

/-- The calls with the times at which they were made. -/
abbrev DedupHistory := List (Time × DedupCall)

def perform (d : MessageDeduplicator) (now : Time) :
    DedupCall → MessageDeduplicator
  | .mark msgID => d.mark now msgID
  | .isDuplicate msgID => (d.isDuplicate now msgID).2
  | .cleanup => d.cleanup now

def performAll (d : MessageDeduplicator) (history : DedupHistory) :
    MessageDeduplicator :=
  history.foldl (fun d call => d.perform call.1 call.2) d

/-- The time of the most recent mark. -/
def lastMark (history : DedupHistory) (msgID : Bytes) : Option Time :=
  (history.reverse.find? (·.2 = .mark msgID)).map Prod.fst

@[simp] theorem lastMark_nil (msgID : Bytes) : lastMark [] msgID = none := rfl

theorem lastMark_concat (history : DedupHistory) (now : Time)
    (call : DedupCall) (msgID : Bytes) :
    lastMark (history ++ [(now, call)]) msgID =
      if call = .mark msgID then some now else lastMark history msgID := by
  unfold lastMark
  rw [List.reverse_append, List.reverse_singleton, List.singleton_append,
    List.find?_cons]
  by_cases hcall : call = .mark msgID <;> simp [hcall]

theorem perform_ttl (d : MessageDeduplicator) (now : Time)
    (call : DedupCall) : (d.perform now call).ttl = d.ttl := by
  cases call with
  | isDuplicate msgID => exact d.isDuplicate_ttl now msgID
  | mark | cleanup => rfl

/-! ### The table against the marks -/

/-- Every entry is the most recent mark of its ID, and a most recent mark that
has not expired has its entry. -/
structure Follows (d : MessageDeduplicator) (ttl : ℤ) (history : DedupHistory)
    (now : Time) : Prop where
  window : d.ttl = ttl
  sound : ∀ ⦃msgID seenAt⦄, d.seen.lookup msgID = some seenAt →
    lastMark history msgID = some seenAt
  complete : ∀ ⦃msgID seenAt⦄, lastMark history msgID = some seenAt →
    now - seenAt ≤ ttl → d.seen.lookup msgID = some seenAt

variable {d : MessageDeduplicator} {ttl : ℤ} {history : DedupHistory}
  {now : Time}

theorem follows_new (ttl : ℤ) (now : Time) :
    (newMessageDeduplicator ttl).Follows ttl [] now := by
  constructor
  · rfl
  · intro msgID seenAt hlookup
    cases hlookup
  · intro msgID seenAt hlast
    cases hlast

theorem Follows.later (hfollows : d.Follows ttl history now) {later : Time}
    (hlater : now ≤ later) : d.Follows ttl history later := by
  refine ⟨hfollows.window, hfollows.sound, ?_⟩
  intro msgID seenAt hlast hfresh
  apply hfollows.complete hlast
  linarith

/-- The queries and the sweep only delete, and only what has expired. -/
theorem Follows.purge (hfollows : d.Follows ttl history now)
    {d' : MessageDeduplicator} (hwindow : d'.ttl = d.ttl) {call : DedupCall}
    (hcall : ∀ msgID, call ≠ .mark msgID)
    (hkept : ∀ ⦃msgID seenAt⦄, d'.seen.lookup msgID = some seenAt →
      d.seen.lookup msgID = some seenAt)
    (hfresh : ∀ ⦃msgID seenAt⦄, d.seen.lookup msgID = some seenAt →
      now - seenAt ≤ d.ttl → d'.seen.lookup msgID = some seenAt) :
    d'.Follows ttl (history ++ [(now, call)]) now := by
  have hlast : ∀ msgID, lastMark (history ++ [(now, call)]) msgID =
      lastMark history msgID := by
    intro msgID
    rw [lastMark_concat, if_neg (hcall msgID)]
  refine ⟨hwindow.trans hfollows.window, ?_, ?_⟩
  · intro msgID seenAt hlookup
    rw [hlast]
    exact hfollows.sound (hkept hlookup)
  · intro msgID seenAt hmark hwithin
    rw [hlast] at hmark
    apply hfresh (hfollows.complete hmark hwithin)
    rw [hfollows.window]
    exact hwithin

theorem Follows.mark (hfollows : d.Follows ttl history now) (msgID : Bytes) :
    (d.mark now msgID).Follows ttl (history ++ [(now, .mark msgID)]) now := by
  refine ⟨hfollows.window, ?_, ?_⟩
  · intro other seenAt hlookup
    rw [lastMark_concat]
    by_cases hother : other = msgID
    · subst hother
      rw [MessageDeduplicator.mark, Finmap.lookup_insert] at hlookup
      rw [if_pos rfl]
      exact hlookup
    · rw [MessageDeduplicator.mark,
        Finmap.lookup_insert_of_ne _ hother] at hlookup
      rw [if_neg (by simpa using Ne.symm hother)]
      exact hfollows.sound hlookup
  · intro other seenAt hlast hfresh
    rw [lastMark_concat] at hlast
    by_cases hother : other = msgID
    · subst hother
      rw [if_pos rfl] at hlast
      rw [MessageDeduplicator.mark, Finmap.lookup_insert]
      exact hlast
    · rw [if_neg (by simpa using Ne.symm hother)] at hlast
      rw [MessageDeduplicator.mark, Finmap.lookup_insert_of_ne _ hother]
      exact hfollows.complete hlast hfresh

theorem Follows.isDuplicate (hfollows : d.Follows ttl history now)
    (msgID : Bytes) :
    (d.isDuplicate now msgID).2.Follows ttl
      (history ++ [(now, .isDuplicate msgID)]) now := by
  have hcall : ∀ other, DedupCall.isDuplicate msgID ≠ .mark other := by simp
  refine hfollows.purge (d.isDuplicate_ttl now msgID) hcall ?_ ?_
  · intro other seenAt hlookup
    exact lookup_of_lookup_isDuplicate hlookup
  · intro other seenAt hlookup hfresh
    exact lookup_isDuplicate_of_fresh hlookup hfresh

theorem Follows.cleanup (hfollows : d.Follows ttl history now) :
    (d.cleanup now).Follows ttl (history ++ [(now, .cleanup)]) now := by
  have hcall : ∀ other, DedupCall.cleanup ≠ .mark other := by simp
  have hwindow : (d.cleanup now).ttl = d.ttl := rfl
  refine hfollows.purge hwindow hcall ?_ ?_
  · intro msgID seenAt hlookup
    exact (lookup_cleanup_eq_some_iff.mp hlookup).1
  · intro msgID seenAt hlookup hfresh
    exact lookup_cleanup hlookup hfresh

theorem Follows.perform (hfollows : d.Follows ttl history now)
    (call : DedupCall) :
    (d.perform now call).Follows ttl (history ++ [(now, call)]) now := by
  cases call with
  | mark msgID => exact hfollows.mark msgID
  | isDuplicate msgID => exact hfollows.isDuplicate msgID
  | cleanup => exact hfollows.cleanup

/-- After a history at non-decreasing times, up to the time `now`. -/
theorem follows_performAll (ttl : ℤ) {history : DedupHistory} {now : Time}
    (htimes : (history.map Prod.fst ++ [now]).Pairwise (· ≤ ·)) :
    ((newMessageDeduplicator ttl).performAll history).Follows ttl history
      now := by
  induction history using List.reverseRecOn generalizing now with
  | nil => exact follows_new ttl now
  | append_singleton earlier call ih =>
      rw [List.map_append, List.map_singleton] at htimes
      rcases List.pairwise_append.mp htimes with ⟨hearlier, -, hbefore⟩
      have hlast : call.1 ≤ now := hbefore call.1 (by simp) now (by simp)
      unfold performAll
      rw [List.foldl_concat]
      exact ((ih hearlier).perform call.2).later hlast

/-- The answer of a query and the table after a sweep are those of the history
of marks. -/
theorem deduplicator_follows_marks {ttl : ℤ} (hpositive : 0 < ttl)
    {history : DedupHistory} {now : Time}
    (htimes : (history.map Prod.fst ++ [now]).Pairwise (· ≤ ·))
    (msgID : Bytes) :
    ((((newMessageDeduplicator ttl).performAll history).isDuplicate now
        msgID).1 = true ↔
      ∃ seenAt, lastMark history msgID = some seenAt ∧ now - seenAt ≤ ttl) ∧
    ∀ seenAt,
      (((newMessageDeduplicator ttl).performAll history).cleanup
          now).seen.lookup msgID = some seenAt ↔
        lastMark history msgID = some seenAt ∧ now - seenAt ≤ ttl := by
  have hfollows := follows_performAll ttl htimes
  generalize (newMessageDeduplicator ttl).performAll history = d at hfollows
  have hwindow := hfollows.window
  constructor
  · rw [isDuplicate_iff]
    constructor
    · rintro ⟨seenAt, hlookup, hlive⟩
      refine ⟨seenAt, hfollows.sound hlookup, ?_⟩
      by_contra hexpired
      rw [hwindow] at hlive
      exact hlive ⟨hpositive, not_le.mp hexpired⟩
    · rintro ⟨seenAt, hlast, hfresh⟩
      refine ⟨seenAt, hfollows.complete hlast hfresh, ?_⟩
      rintro ⟨-, hexpired⟩
      rw [hwindow] at hexpired
      linarith
  · intro seenAt
    rw [lookup_cleanup_eq_some_iff, hwindow]
    constructor
    · rintro ⟨hlookup, hfresh⟩
      exact ⟨hfollows.sound hlookup, hfresh⟩
    · rintro ⟨hlast, hfresh⟩
      exact ⟨hfollows.complete hlast hfresh, hfresh⟩

/-- Marked at 1 and again at 6, `a` is still known at 10; marked at 2 only, `b`
is deleted. -/
theorem deduplicator_follows_marks_refreshed :
    lastMark [(1, .mark [97]), (2, .mark [98]), (6, .mark [97])] [97] =
        some 6 ∧
    (((newMessageDeduplicator 5).performAll
        [(1, .mark [97]), (2, .mark [98]), (6, .mark [97])]).isDuplicate 10
          [97]).1 = true ∧
    ¬ ∃ seenAt, (((newMessageDeduplicator 5).performAll
        [(1, .mark [97]), (2, .mark [98]), (6, .mark [97])]).cleanup
          10).seen.lookup [98] = some seenAt := by
  refine ⟨rfl, ?_, ?_⟩
  · refine (deduplicator_follows_marks (by decide) (by decide) [97]).1.mpr ?_
    exact ⟨6, rfl, by decide⟩
  · rintro ⟨seenAt, hlookup⟩
    obtain ⟨hlast, hfresh⟩ :=
      ((deduplicator_follows_marks (by decide) (by decide) [98]).2 seenAt).mp
        hlookup
    have hseenAt : (2 : Time) = seenAt := Option.some.inj hlast
    subst hseenAt
    exact absurd hfresh (by decide)

/-! ### The sweep and the queries after it -/

/-- The two tables hold the same entries that are at most the window old. -/
structure SameLive (d d' : MessageDeduplicator) (now : Time) : Prop where
  window : d.ttl = d'.ttl
  live : ∀ ⦃msgID seenAt⦄, now - seenAt ≤ d.ttl →
    (d.seen.lookup msgID = some seenAt ↔ d'.seen.lookup msgID = some seenAt)

theorem sameLive_cleanup (d : MessageDeduplicator) (now : Time) :
    d.SameLive (d.cleanup now) now := by
  refine ⟨rfl, ?_⟩
  intro msgID seenAt hfresh
  rw [lookup_cleanup_eq_some_iff]
  exact (and_iff_left hfresh).symm

theorem SameLive.later {d' : MessageDeduplicator}
    (hlive : d.SameLive d' now) {later : Time} (hlater : now ≤ later) :
    d.SameLive d' later := by
  refine ⟨hlive.window, ?_⟩
  intro msgID seenAt hfresh
  apply hlive.live
  linarith

/-- No call deletes an entry that is at most the window old, and a mark writes
the same entry to both tables. -/
theorem lookup_perform_iff {call : DedupCall} {msgID : Bytes} {seenAt : Time}
    (hfresh : now - seenAt ≤ d.ttl) :
    (d.perform now call).seen.lookup msgID = some seenAt ↔
      if call = .mark msgID then now = seenAt
      else d.seen.lookup msgID = some seenAt := by
  cases call with
  | mark other =>
      simp only [perform, MessageDeduplicator.mark]
      by_cases hother : msgID = other
      · subst hother
        simp
      · rw [Finmap.lookup_insert_of_ne _ hother, if_neg]
        simpa using Ne.symm hother
  | isDuplicate other =>
      rw [if_neg (by simp)]
      exact ⟨lookup_of_lookup_isDuplicate,
        fun hlookup => lookup_isDuplicate_of_fresh hlookup hfresh⟩
  | cleanup =>
      rw [if_neg (by simp)]
      exact lookup_cleanup_eq_some_iff.trans (and_iff_left hfresh)

theorem SameLive.perform {d' : MessageDeduplicator}
    (hlive : d.SameLive d' now) (call : DedupCall) :
    (d.perform now call).SameLive (d'.perform now call) now := by
  constructor
  · rw [perform_ttl, perform_ttl]
    exact hlive.window
  · intro msgID seenAt hfresh
    rw [perform_ttl] at hfresh
    have hfresh' : now - seenAt ≤ d'.ttl := hlive.window ▸ hfresh
    rw [lookup_perform_iff hfresh, lookup_perform_iff hfresh']
    split
    · rfl
    · exact hlive.live hfresh

theorem SameLive.performAll {d' : MessageDeduplicator}
    (hlive : d.SameLive d' now) {later : DedupHistory}
    (htimes : (now :: later.map Prod.fst).Pairwise (· ≤ ·)) {last : Time}
    (hlast : ∀ time ∈ now :: later.map Prod.fst, time ≤ last) :
    (d.performAll later).SameLive (d'.performAll later) last := by
  induction later generalizing d d' now with
  | nil => exact hlive.later (hlast now List.mem_cons_self)
  | cons call later ih =>
      rw [List.map_cons] at htimes hlast
      obtain ⟨hfirst, hrest⟩ := List.pairwise_cons.mp htimes
      have hstep := (hlive.later (hfirst call.1 List.mem_cons_self)).perform
        call.2
      exact ih hstep hrest fun time hmem =>
        hlast time (List.mem_cons_of_mem _ hmem)

/-- With a positive window the queries ask for the live entries only. -/
theorem SameLive.isDuplicate_fst {d' : MessageDeduplicator}
    (hlive : d.SameLive d' now) (hpositive : 0 < d.ttl) (msgID : Bytes) :
    (d.isDuplicate now msgID).1 = (d'.isDuplicate now msgID).1 := by
  rw [Bool.eq_iff_iff, isDuplicate_iff, isDuplicate_iff, ← hlive.window]
  refine exists_congr fun seenAt => and_congr_left fun hnot => ?_
  apply hlive.live
  by_contra hexpired
  exact hnot ⟨hpositive, not_le.mp hexpired⟩

theorem performAll_ttl (d : MessageDeduplicator) (history : DedupHistory) :
    (d.performAll history).ttl = d.ttl := by
  induction history generalizing d with
  | nil => rfl
  | cons call history ih => exact (ih _).trans (d.perform_ttl call.1 call.2)

theorem cleanup_eq_self
    (hfresh : ∀ msgID seenAt, d.seen.lookup msgID = some seenAt →
      now - seenAt ≤ d.ttl) :
    d.cleanup now = d := by
  have hseen : (d.cleanup now).seen = d.seen := by
    apply Finmap.ext_lookup
    intro msgID
    apply Option.ext
    intro seenAt
    rw [lookup_cleanup_eq_some_iff]
    exact and_iff_left_of_imp (hfresh msgID seenAt)
  cases d
  rw [MessageDeduplicator.mk.injEq]
  exact ⟨hseen, rfl⟩

/-- The sweep is unobservable until the next mark exactly if the window is
positive or there is nothing to delete: the query keeps every entry when the
window is not positive, the sweep does not. -/
theorem cleanup_unobservable_iff (d : MessageDeduplicator) (now : Time) :
    (∀ (later : DedupHistory) (last : Time) (msgID : Bytes),
      (∀ call ∈ later, ∀ marked, call.2 ≠ .mark marked) →
      (now :: later.map Prod.fst ++ [last]).Pairwise (· ≤ ·) →
      (((d.cleanup now).performAll later).isDuplicate last msgID).1 =
        ((d.performAll later).isDuplicate last msgID).1) ↔
    (0 < d.ttl ∨
      ∀ msgID seenAt, d.seen.lookup msgID = some seenAt →
        now - seenAt ≤ d.ttl) := by
  constructor
  · intro hunobservable
    by_contra hneither
    push Not at hneither
    obtain ⟨hwindow, msgID, seenAt, hlookup, hexpired⟩ := hneither
    have hanswer := hunobservable [] now msgID (by simp) (by simp)
    have hbefore : (d.isDuplicate now msgID).1 = true := by
      rw [isDuplicate_iff]
      exact ⟨seenAt, hlookup, fun hboth => absurd hboth.1 (not_lt.mpr hwindow)⟩
    have hafter : ((d.cleanup now).isDuplicate now msgID).1 = true :=
      hanswer.trans hbefore
    obtain ⟨other, hkept, -⟩ := isDuplicate_iff.mp hafter
    obtain ⟨hother, hfresh⟩ := lookup_cleanup_eq_some_iff.mp hkept
    rw [hlookup, Option.some.injEq] at hother
    subst hother
    exact absurd hfresh (not_le.mpr hexpired)
  · rintro (hpositive | hfresh) later last msgID - htimes
    · rw [List.pairwise_append] at htimes
      obtain ⟨hlater, -, hlast⟩ := htimes
      have hlive := (d.sameLive_cleanup now).performAll hlater
        fun time hmem => hlast time hmem last (List.mem_singleton_self last)
      rw [hlive.isDuplicate_fst]
      rw [performAll_ttl]
      exact hpositive
    · rw [cleanup_eq_self hfresh]

/-- The entry marked at 3 is a duplicate at 4 and, swept at 4, is not any more:
the window is 0. -/
theorem cleanup_observable_zero_window :
    ((((newMessageDeduplicator 0).mark 3 [97]).isDuplicate 4 [97]).1 = true) ∧
    (((((newMessageDeduplicator 0).mark 3 [97]).cleanup 4).isDuplicate 4
      [97]).1 = false) := by
  decide

end MessageDeduplicator

end GoP2P.Node
