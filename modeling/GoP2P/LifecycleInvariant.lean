import GoP2P.TransportLifecycle

/-!
# The invariant of a transport's goroutines

Every connection has one goroutine that reads from it, and one goroutine at
most is in the body of its `closeOnce`.  A connection whose `closeOnce` is done
has a closed socket and no entry in `conns`; one whose `closeOnce` is unused is
stored, unless a newer connection of its peer has taken its place.  That is
what `Stop` builds on: once it has walked its snapshot, nothing that was stored
is still read from.
-/

namespace GoP2P.Node

namespace Lifecycle

/-- A newer connection of the same peer has taken the place of this one. -/
def Replaced (s : Lifecycle) (connection : ℕ) : Prop :=
  ∃ newer peerID, connection < newer ∧ s.idOf connection = some peerID ∧
    s.idOf newer = some peerID

/-- The invariant of a transport with its goroutines. -/
structure Sound (s : Lifecycle) : Prop where
  stored : ∀ ⦃i : Bytes⦄ ⦃n : ℕ⦄, s.conns.lookup i = some n →
    s.idOf n = some i
  origins : (s.routines.filterMap (·.origin)).Perm
    (List.range s.links.length)
  mentioned : ∀ routine ∈ s.routines, ∀ n ∈ routine.mentions,
    n < s.links.length
  /-- One goroutine at most is in the body of a `closeOnce`. -/
  exclusive : (s.routines.filterMap (·.holds)).Nodup
  running : ∀ n, n ∈ s.routines.filterMap (·.holds) ↔
    s.onceOf n = some .running
  dropped : ∀ routine ∈ s.routines, ∀ n graceful,
    routine.closing = some (n, graceful, .disconnecting) →
      ∀ i, s.conns.lookup i ≠ some n
  done : ∀ n, s.onceOf n = some .done →
    s.socketClosed n = true ∧ ∀ i, s.conns.lookup i ≠ some n
  left : ∀ n, Goroutine.readLoop n .finished ∈ s.routines →
    s.onceOf n = some .done
  /-- A connection that nobody has closed is stored, unless it was replaced. -/
  unclosed : ∀ n i, s.onceOf n = some .unused → s.idOf n = some i →
    s.conns.lookup i = some n ∨ s.Replaced n
  cancelled : ∀ routine ∈ s.routines, routine.hasCancelled = true →
    s.cancelled = true
  /-- `Stop` has before it all connections that are still read from, but for
  those that were replaced. -/
  aimed : ∀ routine ∈ s.routines, ∀ rest, routine.remaining = some rest →
    ∀ n, Goroutine.readLoop n .reading ∈ s.routines →
      s.onceOf n = some .unused → n ∈ rest ∨ s.Replaced n

theorem sound_initial : ({} : Lifecycle).Sound where
  stored := by
    intro i n hlookup
    cases hlookup
  origins := List.Perm.refl _
  mentioned := by simp
  exclusive := List.nodup_nil
  running := by simp [onceOf]
  dropped := by simp
  done := by simp [onceOf]
  left := by simp
  unclosed := by simp [onceOf]
  cancelled := by simp
  aimed := by simp

/-- A goroutine moves on, starts others and leaves the connections alone. -/
theorem Sound.moved {s s' : Lifecycle} (hsound : s.Sound) {position : ℕ}
    {old new : Goroutine} (added : List Goroutine)
    (hold : s.routines[position]? = some old)
    (hlinks : s'.links = s.links) (hconns : s'.conns = s.conns)
    (hcancelled : s.cancelled = true → s'.cancelled = true)
    (hroutines : s'.routines = s.routines.set position new ++ added)
    (horigin : (new.origin.toList ++ added.filterMap (·.origin)).Perm
      old.origin.toList)
    (hfresh : ∀ routine ∈ added, routine.Fresh)
    (hholds : old.holds = none) (hholds' : new.holds = none)
    (hmentions : ∀ routine ∈ new :: added, ∀ n ∈ routine.mentions,
      n < s.links.length)
    (hleft : ∀ n, new = .readLoop n .finished → s.onceOf n = some .done)
    (hreading : ∀ n, new = .readLoop n .reading → s.cancelled = false)
    (hcancels : new.hasCancelled = true → s'.cancelled = true)
    (haimed : ∀ rest, new.remaining = some rest →
      ∀ n, Goroutine.readLoop n .reading ∈ s.routines →
        s.onceOf n = some .unused → n ∈ rest ∨ s.Replaced n) :
    s'.Sound := by
  have honce : ∀ n, s'.onceOf n = s.onceOf n := by
    intro n
    unfold onceOf
    rw [hlinks]
  have hid : ∀ n, s'.idOf n = s.idOf n := by
    intro n
    unfold idOf
    rw [hlinks]
  have hreplaced : ∀ n, s'.Replaced n ↔ s.Replaced n := by
    intro n
    unfold Replaced
    simp only [hid]
  have hidle : added.filterMap (·.holds) = [] := by
    rw [List.filterMap_eq_nil_iff]
    intro routine hroutine
    exact (hfresh routine hroutine).holds
  have hheld : (s'.routines.filterMap (·.holds)).Perm
      (s.routines.filterMap (·.holds)) := by
    have hperm := filterMap_set_perm (·.holds) hold new
    rw [hholds, hholds'] at hperm
    rw [hroutines, List.filterMap_append, hidle, List.append_nil]
    exact hperm
  have hmem : ∀ routine ∈ s'.routines,
      routine ∈ s.routines ∨ routine = new ∨ routine ∈ added := by
    intro routine hroutine
    rw [hroutines, List.mem_append] at hroutine
    rcases hroutine with hset | hadded
    · exact (List.mem_or_eq_of_mem_set hset).imp_right .inl
    · exact .inr (.inr hadded)
  constructor
  · intro i n hlookup
    rw [hconns] at hlookup
    rw [hid]
    exact hsound.stored hlookup
  · have hperm := filterMap_set_perm (·.origin) hold new
    have hsame : ((s.routines.set position new ++ added).filterMap
        (·.origin)).Perm (s.routines.filterMap (·.origin)) := by
      rw [List.filterMap_append]
      apply (List.perm_append_left_iff old.origin.toList).mp
      calc
        old.origin.toList ++
            ((s.routines.set position new).filterMap (·.origin) ++
              added.filterMap (·.origin)) =
            (old.origin.toList ++
              (s.routines.set position new).filterMap (·.origin)) ++
                added.filterMap (·.origin) := by rw [List.append_assoc]
        List.Perm _ ((new.origin.toList ++
            s.routines.filterMap (·.origin)) ++
              added.filterMap (·.origin)) := hperm.append_right _
        List.Perm _ ((new.origin.toList ++ added.filterMap (·.origin)) ++
            s.routines.filterMap (·.origin)) := by
          rw [List.append_assoc, List.append_assoc]
          exact List.perm_append_comm.append_left _
        List.Perm _ _ := horigin.append_right _
    rw [hroutines, hlinks]
    exact hsame.trans hsound.origins
  · intro routine hroutine n hn
    rw [hlinks]
    rcases hmem routine hroutine with hbefore | hnew
    · exact hsound.mentioned routine hbefore n hn
    · exact hmentions routine (List.mem_cons.mpr hnew) n hn
  · exact hheld.nodup_iff.mpr hsound.exclusive
  · intro n
    rw [hheld.mem_iff, honce]
    exact hsound.running n
  · intro routine hroutine n graceful hclosing
    rw [hconns]
    have hholding := Goroutine.holds_of_closing hclosing (by decide)
    rcases hmem routine hroutine with hbefore | rfl | hadded
    · exact hsound.dropped routine hbefore n graceful hclosing
    · rw [hholds'] at hholding
      cases hholding
    · rw [(hfresh routine hadded).holds] at hholding
      cases hholding
  · intro n hdone
    rw [honce] at hdone
    unfold socketClosed
    rw [hconns, hlinks]
    exact hsound.done n hdone
  · intro n hfinished
    rw [honce]
    rcases hmem _ hfinished with hbefore | hnew | hadded
    · exact hsound.left n hbefore
    · exact hleft n hnew.symm
    · exact absurd rfl ((hfresh _ hadded).finished n)
  · intro n i hunused hidn
    rw [honce] at hunused
    rw [hid] at hidn
    rw [hconns, hreplaced]
    exact hsound.unclosed n i hunused hidn
  · intro routine hroutine hafter
    rcases hmem routine hroutine with hbefore | rfl | hadded
    · exact hcancelled (hsound.cancelled routine hbefore hafter)
    · exact hcancels hafter
    · rw [(hfresh routine hadded).hasCancelled] at hafter
      cases hafter
  · intro routine hroutine rest hrest n hread hunused
    rw [honce] at hunused
    rw [hreplaced]
    have hafter := Goroutine.hasCancelled_of_remaining hrest
    rcases hmem routine hroutine with hbefore | rfl | hadded
    · rcases hmem _ hread with hreads | hnew | hadded
      · exact hsound.aimed routine hbefore rest hrest n hreads hunused
      · have hset := hreading n hnew.symm
        rw [hsound.cancelled routine hbefore hafter] at hset
        cases hset
      · exact absurd rfl ((hfresh _ hadded).reading n)
    · rcases hmem _ hread with hreads | hnew | hadded
      · exact haimed rest hrest n hreads hunused
      · rw [← hnew] at hrest
        cases hrest
      · exact absurd rfl ((hfresh _ hadded).reading n)
    · rw [(hfresh routine hadded).hasCancelled] at hafter
      cases hafter

/-- A goroutine is started from outside that reads from no connection. -/
theorem Sound.spawned {s : Lifecycle} (hsound : s.Sound) {routine : Goroutine}
    (hfresh : routine.Fresh) (horigin : routine.origin = none)
    (hmentions : ∀ n ∈ routine.mentions, n < s.links.length) :
    (s.spawn routine).Sound := by
  have hmem : ∀ other ∈ (s.spawn routine).routines,
      other ∈ s.routines ∨ other = routine := by
    intro other hother
    simpa [spawn] using hother
  have hheld : (s.spawn routine).routines.filterMap (·.holds) =
      s.routines.filterMap (·.holds) := by
    simp [spawn, hfresh.holds]
  constructor
  · exact hsound.stored
  · simpa [spawn, horigin] using hsound.origins
  · intro other hother n hn
    rcases hmem other hother with hbefore | rfl
    · exact hsound.mentioned other hbefore n hn
    · exact hmentions n hn
  · rw [hheld]
    exact hsound.exclusive
  · intro n
    rw [hheld]
    exact hsound.running n
  · intro other hother n graceful hclosing
    rcases hmem other hother with hbefore | rfl
    · exact hsound.dropped other hbefore n graceful hclosing
    · have hholding := Goroutine.holds_of_closing hclosing (by decide)
      rw [hfresh.holds] at hholding
      cases hholding
  · exact hsound.done
  · intro n hfinished
    rcases hmem _ hfinished with hbefore | hnew
    · exact hsound.left n hbefore
    · exact absurd hnew.symm (hfresh.finished n)
  · exact hsound.unclosed
  · intro other hother hafter
    rcases hmem other hother with hbefore | rfl
    · exact hsound.cancelled other hbefore hafter
    · rw [hfresh.hasCancelled] at hafter
      cases hafter
  · intro other hother rest hrest n hread hunused
    rcases hmem other hother with hbefore | rfl
    · rcases hmem _ hread with hreads | hnew
      · exact hsound.aimed other hbefore rest hrest n hreads hunused
      · exact absurd hnew.symm (hfresh.reading n)
    · have hafter := Goroutine.hasCancelled_of_remaining hrest
      rw [hfresh.hasCancelled] at hafter
      cases hafter

/-! ### The body of `Close` -/

/-- A goroutine moves on within a call of `Close`, which touches nothing but
its own connection. -/
theorem Sound.stepped {s s' : Lifecycle} (hsound : s.Sound) {position : ℕ}
    {old : Goroutine} {n : ℕ} {graceful : Bool} {stage : Closing}
    {next : Option Closing} (hold : s.routines[position]? = some old)
    (hclosing : old.closing = some (n, graceful, stage))
    (hroutines : s'.routines = s.routines.set position (old.resume next))
    (hcancelled : s'.cancelled = s.cancelled)
    (hlength : s'.links.length = s.links.length)
    (hid : ∀ m, s'.idOf m = s.idOf m)
    (hothers : ∀ m, m ≠ n → s'.onceOf m = s.onceOf m ∧
      s'.socketClosed m = s.socketClosed m)
    (hfewer : ∀ i m, s'.conns.lookup i = some m → s.conns.lookup i = some m)
    (hkept : ∀ i m, m ≠ n → s.conns.lookup i = some m →
      s'.conns.lookup i = some m)
    (hexclusive : (s'.routines.filterMap (·.holds)).Nodup)
    (hrunning : ∀ m, m ∈ s'.routines.filterMap (·.holds) ↔
      s'.onceOf m = some .running)
    (hdropped : next = some .disconnecting →
      ∀ i, s'.conns.lookup i ≠ some n)
    (hdone : s'.onceOf n = some .done →
      s'.socketClosed n = true ∧ ∀ i, s'.conns.lookup i ≠ some n)
    (hstays : s.onceOf n = some .done ∨ next = none →
      s'.onceOf n = some .done)
    (hused : s'.onceOf n ≠ some .unused) : s'.Sound := by
  have hmemold := List.mem_of_getElem? hold
  have hreplaced : ∀ m, s'.Replaced m ↔ s.Replaced m := by
    intro m
    unfold Replaced
    simp only [hid]
  have hmem : ∀ routine ∈ s'.routines,
      routine ∈ s.routines ∨ routine = old.resume next := by
    intro routine hroutine
    rw [hroutines] at hroutine
    exact List.mem_or_eq_of_mem_set hroutine
  have hunused : ∀ m, s'.onceOf m = some .unused →
      m ≠ n ∧ s.onceOf m = some .unused := by
    intro m hm
    have hne : m ≠ n := by
      rintro rfl
      exact hused hm
    exact ⟨hne, (hothers m hne).1 ▸ hm⟩
  constructor
  · intro i m hlookup
    rw [hid]
    exact hsound.stored (hfewer i m hlookup)
  · have hperm := filterMap_set_perm (·.origin) hold (old.resume next)
    rw [Goroutine.origin_resume hclosing] at hperm
    rw [hroutines, hlength]
    exact ((List.perm_append_left_iff _).mp hperm).trans hsound.origins
  · intro routine hroutine m hm
    rw [hlength]
    rcases hmem routine hroutine with hbefore | rfl
    · exact hsound.mentioned routine hbefore m hm
    · exact hsound.mentioned old hmemold m
        (Goroutine.mentions_resume hclosing next m hm)
  · exact hexclusive
  · exact hrunning
  · intro routine hroutine m graceful' hat i hlookup
    rcases hmem routine hroutine with hbefore | rfl
    · exact hsound.dropped routine hbefore m graceful' hat i
        (hfewer i m hlookup)
    · cases next with
      | none =>
          have hholding := Goroutine.holds_of_closing hat (by decide)
          rw [Goroutine.holds_resume_none hclosing] at hholding
          cases hholding
      | some stage' =>
          rw [Goroutine.closing_resume_some hclosing] at hat
          cases hat
          exact hdropped rfl i hlookup
  · intro m hm
    by_cases hmn : m = n
    · subst hmn
      exact hdone hm
    · rw [(hothers m hmn).1] at hm
      rw [(hothers m hmn).2]
      refine ⟨(hsound.done m hm).1, ?_⟩
      intro i hlookup
      exact (hsound.done m hm).2 i (hfewer i m hlookup)
  · intro m hfinished
    rcases hmem _ hfinished with hbefore | hnew
    · have hm := hsound.left m hbefore
      by_cases hmn : m = n
      · subst hmn
        exact hstays (.inl hm)
      · rw [(hothers m hmn).1]
        exact hm
    · rcases Goroutine.eq_of_resume_eq_finished hclosing hnew.symm with
        ⟨hnext, rfl⟩
      exact hstays (.inr hnext)
  · intro m i hm hidm
    rcases hunused m hm with ⟨hne, hbefore⟩
    rw [hid] at hidm
    rw [hreplaced]
    rcases hsound.unclosed m i hbefore hidm with hlookup | hreplaced
    · exact .inl (hkept i m hne hlookup)
    · exact .inr hreplaced
  · intro routine hroutine hafter
    rw [hcancelled]
    rcases hmem routine hroutine with hbefore | rfl
    · exact hsound.cancelled routine hbefore hafter
    · rw [Goroutine.hasCancelled_resume hclosing] at hafter
      exact hsound.cancelled old hmemold hafter
  · have hreads : ∀ m, Goroutine.readLoop m .reading ∈ s'.routines →
        Goroutine.readLoop m .reading ∈ s.routines := by
      intro m hm
      rcases hmem _ hm with hbefore | hnew
      · exact hbefore
      · exact absurd hnew.symm (Goroutine.resume_ne_reading hclosing next m)
    intro routine hroutine rest hrest m hread hm
    rw [hreplaced]
    rcases hunused m hm with ⟨hne, hbefore⟩
    rcases hmem routine hroutine with hother | rfl
    · exact hsound.aimed routine hother rest hrest m (hreads m hread) hbefore
    · rcases Goroutine.remaining_resume hclosing hrest with
        ⟨before, hremaining, hleft⟩
      rcases hsound.aimed old hmemold before hremaining m (hreads m hread)
        hbefore with hmem | hreplaced
      · exact .inl ((hleft m hmem).resolve_left hne)
      · exact .inr hreplaced

section SetLink

variable {s s' : Lifecycle} {n : ℕ} {link new : Link}
  (hlink : s.links[n]? = some link) (hlinks : s'.links = s.links.set n new)

include hlinks

theorem onceOf_of_set_ne {m : ℕ} (hne : m ≠ n) : s'.onceOf m = s.onceOf m := by
  unfold onceOf
  rw [hlinks, List.getElem?_set_ne hne.symm]

theorem socketClosed_of_set_ne {m : ℕ} (hne : m ≠ n) :
    s'.socketClosed m = s.socketClosed m := by
  unfold socketClosed
  rw [hlinks, List.getElem?_set_ne hne.symm]

include hlink

theorem getElem?_of_set_self : s'.links[n]? = some new := by
  rw [hlinks]
  exact List.getElem?_set_self (List.getElem?_eq_some_iff.mp hlink).1

theorem idOf_of_set (hpeer : new.peerID = link.peerID) (m : ℕ) :
    s'.idOf m = s.idOf m := by
  by_cases hne : m = n
  · subst hne
    unfold idOf
    rw [getElem?_of_set_self hlink hlinks, hlink, Option.map_some,
      Option.map_some, hpeer]
  · unfold idOf
    rw [hlinks, List.getElem?_set_ne (Ne.symm hne)]

end SetLink

/-- What a goroutine holds before and after it has moved on. -/
theorem holders_perm {s : Lifecycle} {position : ℕ} {old : Goroutine}
    (hold : s.routines[position]? = some old) (new : Goroutine) :
    (old.holds.toList ++
        (s.routines.set position new).filterMap (·.holds)).Perm
      (new.holds.toList ++ s.routines.filterMap (·.holds)) :=
  filterMap_set_perm (·.holds) hold new

/-- The first goroutine to come enters the body of `closeOnce`. -/
theorem Sound.enters {s s' : Lifecycle} (hsound : s.Sound) {position n : ℕ}
    {old : Goroutine} {graceful : Bool} {link : Link} {stage : Closing}
    (hold : s.routines[position]? = some old)
    (hclosing : old.closing = some (n, graceful, .entering))
    (hlink : s.links[n]? = some link) (hunused : link.once = .unused)
    (hstage : stage = .notifying ∨ stage = .dropping)
    (hroutines : s'.routines =
      s.routines.set position (old.resume (some stage)))
    (hcancelled : s'.cancelled = s.cancelled)
    (hlinks : s'.links = s.links.set n { link with once := .running })
    (hconns : s'.conns = s.conns) : s'.Sound := by
  have honce : s.onceOf n = some .unused := by
    simp [onceOf, hlink, hunused]
  have hself : s'.onceOf n = some .running := by
    unfold onceOf
    rw [getElem?_of_set_self hlink hlinks, Option.map_some]
  have hfree : n ∉ s.routines.filterMap (·.holds) := by
    rw [hsound.running, honce]
    simp
  have hresume := Goroutine.closing_resume_some hclosing stage
  have hheld : (old.resume (some stage)).holds = some n := by
    apply Goroutine.holds_of_closing hresume
    rcases hstage with rfl | rfl <;> decide
  have hperm : (s'.routines.filterMap (·.holds)).Perm
      (n :: s.routines.filterMap (·.holds)) := by
    have hmoved := holders_perm hold (old.resume (some stage))
    rw [Goroutine.holds_of_entering hclosing, hheld] at hmoved
    rw [hroutines]
    exact hmoved
  refine hsound.stepped hold hclosing hroutines hcancelled ?_
    (idOf_of_set hlink hlinks rfl) ?_ ?_ ?_ ?_ ?_ ?_ ?_ ?_ ?_
  · rw [hlinks, List.length_set]
  · intro m hne
    exact ⟨onceOf_of_set_ne hlinks hne, socketClosed_of_set_ne hlinks hne⟩
  · intro i m hlookup
    rwa [hconns] at hlookup
  · intro i m _ hlookup
    rwa [hconns]
  · exact hperm.nodup_iff.mpr (List.nodup_cons.mpr ⟨hfree, hsound.exclusive⟩)
  · intro m
    rw [hperm.mem_iff, List.mem_cons, hsound.running]
    by_cases hne : m = n
    · subst hne
      simp [hself]
    · simp [hne, onceOf_of_set_ne hlinks hne]
  · intro hnext
    rcases hstage with rfl | rfl <;> cases hnext
  · intro hdone
    rw [hself] at hdone
    cases hdone
  · intro hbefore
    rcases hbefore with hdone | hnext
    · rw [honce] at hdone
      cases hdone
    · cases hnext
  · rw [hself]
    simp

/-- Whoever comes to a `closeOnce` that is done returns at once. -/
theorem Sound.passes {s : Lifecycle} (hsound : s.Sound) {position n : ℕ}
    {old : Goroutine} {graceful : Bool}
    (hold : s.routines[position]? = some old)
    (hclosing : old.closing = some (n, graceful, .entering))
    (hdone : s.onceOf n = some .done) :
    ({ s with routines := s.routines.set position (old.resume none) } :
      Lifecycle).Sound := by
  have hmem := List.mem_of_getElem? hold
  refine hsound.moved [] hold rfl rfl id (List.append_nil _).symm
    ?_ (by simp) (Goroutine.holds_of_entering hclosing)
    (Goroutine.holds_resume_none hclosing) ?_ ?_ ?_ ?_ ?_
  · rw [Goroutine.origin_resume hclosing]
    simp
  · intro routine hroutine m hm
    rw [List.mem_singleton] at hroutine
    subst hroutine
    exact hsound.mentioned old hmem m
      (Goroutine.mentions_resume hclosing none m hm)
  · intro m hfinished
    rw [(Goroutine.eq_of_resume_eq_finished hclosing hfinished).2]
    exact hdone
  · intro m hreading
    exact absurd hreading (Goroutine.resume_ne_reading hclosing none m)
  · intro hafter
    rw [Goroutine.hasCancelled_resume hclosing] at hafter
    exact hsound.cancelled old hmem hafter
  · intro rest hrest m hread hunused
    rcases Goroutine.remaining_resume hclosing hrest with
      ⟨before, hremaining, hleft⟩
    have hne : m ≠ n := by
      rintro rfl
      rw [hdone] at hunused
      cases hunused
    rcases hsound.aimed old hmem before hremaining m hread hunused with
      hbefore | hreplaced
    · exact .inl ((hleft m hbefore).resolve_left hne)
    · exact .inr hreplaced

/-- A goroutine that stays within the body of `closeOnce` and leaves the
connection's own record alone. -/
theorem Sound.stays {s s' : Lifecycle} (hsound : s.Sound) {position n : ℕ}
    {old : Goroutine} {graceful : Bool} {stage stage' : Closing}
    (hold : s.routines[position]? = some old)
    (hclosing : old.closing = some (n, graceful, stage))
    (hstage : stage ≠ .entering) (hstage' : stage' ≠ .entering)
    (hroutines : s'.routines =
      s.routines.set position (old.resume (some stage')))
    (hcancelled : s'.cancelled = s.cancelled) (hlinks : s'.links = s.links)
    (hfewer : ∀ i m, s'.conns.lookup i = some m → s.conns.lookup i = some m)
    (hkept : ∀ i m, m ≠ n → s.conns.lookup i = some m →
      s'.conns.lookup i = some m)
    (hdropped : stage' = .disconnecting →
      ∀ i, s'.conns.lookup i ≠ some n) : s'.Sound := by
  have hholds := Goroutine.holds_of_closing hclosing hstage
  have hresume := Goroutine.closing_resume_some hclosing stage'
  have hperm := holders_perm hold (old.resume (some stage'))
  rw [hholds, Goroutine.holds_of_closing hresume hstage'] at hperm
  have hsame := (List.perm_append_left_iff _).mp hperm
  have honce : ∀ m, s'.onceOf m = s.onceOf m := by
    intro m
    unfold onceOf
    rw [hlinks]
  have hrunning : s.onceOf n = some .running := by
    rw [← hsound.running]
    exact List.mem_filterMap.mpr ⟨old, List.mem_of_getElem? hold, hholds⟩
  refine hsound.stepped hold hclosing hroutines hcancelled ?_ ?_ ?_ hfewer
    hkept ?_ ?_ ?_ ?_ ?_ ?_
  · rw [hlinks]
  · intro m
    unfold idOf
    rw [hlinks]
  · intro m _
    refine ⟨honce m, ?_⟩
    unfold socketClosed
    rw [hlinks]
  · rw [hroutines]
    exact hsame.nodup_iff.mpr hsound.exclusive
  · intro m
    rw [hroutines, hsame.mem_iff, honce]
    exact hsound.running m
  · intro hnext
    exact hdropped (Option.some.inj hnext)
  · intro hdone
    rw [honce, hrunning] at hdone
    cases hdone
  · intro hbefore
    rcases hbefore with hdone | hnext
    · rw [hrunning] at hdone
      cases hdone
    · cases hnext
  · rw [honce, hrunning]
    simp

theorem Sound.disconnects {s s' : Lifecycle} (hsound : s.Sound)
    {position n : ℕ} {old : Goroutine} {graceful : Bool} {link : Link}
    (hold : s.routines[position]? = some old)
    (hclosing : old.closing = some (n, graceful, .disconnecting))
    (hlink : s.links[n]? = some link)
    (hroutines : s'.routines = s.routines.set position (old.resume none))
    (hcancelled : s'.cancelled = s.cancelled)
    (hlinks : s'.links =
      s.links.set n { link with once := .done, socketClosed := true })
    (hconns : s'.conns = s.conns) : s'.Sound := by
  have hself : s'.onceOf n = some .done := by
    unfold onceOf
    rw [getElem?_of_set_self hlink hlinks, Option.map_some]
  have hholds := Goroutine.holds_of_closing hclosing (by decide)
  have hperm : (n :: s'.routines.filterMap (·.holds)).Perm
      (s.routines.filterMap (·.holds)) := by
    have hmoved := holders_perm hold (old.resume none)
    rw [hholds, Goroutine.holds_resume_none hclosing] at hmoved
    rw [hroutines]
    exact hmoved
  have hnodup := List.nodup_cons.mp (hperm.nodup_iff.mpr hsound.exclusive)
  refine hsound.stepped hold hclosing hroutines hcancelled ?_
    (idOf_of_set hlink hlinks rfl) ?_ ?_ ?_ hnodup.2 ?_ ?_ ?_ ?_ ?_
  · rw [hlinks, List.length_set]
  · intro m hne
    exact ⟨onceOf_of_set_ne hlinks hne, socketClosed_of_set_ne hlinks hne⟩
  · intro i m hlookup
    rwa [hconns] at hlookup
  · intro i m _ hlookup
    rwa [hconns]
  · intro m
    by_cases hne : m = n
    · subst hne
      rw [hself]
      simpa using hnodup.1
    · rw [onceOf_of_set_ne hlinks hne, ← hsound.running, ← hperm.mem_iff,
        List.mem_cons, or_iff_right hne]
  · intro hnext
    cases hnext
  · intro _
    rw [hconns]
    refine ⟨?_, hsound.dropped old (List.mem_of_getElem? hold) n graceful
      hclosing⟩
    unfold socketClosed
    rw [getElem?_of_set_self hlink hlinks, Option.elim_some]
  · intro _
    exact hself
  · rw [hself]
    simp

/-- The entry that a close takes out was the only one that led to its
connection. -/
theorem Sound.not_stored_after_drop {s : Lifecycle} (hsound : s.Sound) {n : ℕ}
    {link : Link} (hlink : s.links[n]? = some link) (i : Bytes) :
    (if s.conns.lookup link.peerID = some n then s.conns.erase link.peerID
      else s.conns).lookup i ≠ some n := by
  intro hlookup
  have hown : s.conns.lookup i = some n → i = link.peerID := by
    intro hbefore
    have hstored := hsound.stored hbefore
    simp only [idOf, hlink, Option.map_some, Option.some.injEq] at hstored
    exact hstored.symm
  split at hlookup
  · rcases lookup_of_lookup_erase hlookup with ⟨hne, hbefore⟩
    exact hne (hown hbefore)
  next hother =>
    rw [hown hlookup] at hlookup
    exact hother hlookup

theorem Sound.close {s t : Lifecycle} (hsound : s.Sound) {position n : ℕ}
    {old : Goroutine} {graceful : Bool} {stage : Closing}
    {next : Option Closing} (hold : s.routines[position]? = some old)
    (hclosing : old.closing = some (n, graceful, stage))
    (hclose : s.close n graceful stage = some (t, next)) :
    ({ t with routines := t.routines.set position (old.resume next) } :
      Lifecycle).Sound := by
  unfold Lifecycle.close at hclose
  split at hclose
  · cases hclose
  next link hlink =>
    cases stage with
    | entering =>
        dsimp only at hclose
        split at hclose
        next hunused =>
          cases hclose
          refine hsound.enters hold hclosing hlink hunused ?_ rfl rfl rfl rfl
          cases graceful <;> simp
        next => cases hclose
        next hdone =>
          cases hclose
          exact hsound.passes hold hclosing (by simp [onceOf, hlink, hdone])
    | notifying =>
        cases hclose
        exact hsound.stays hold hclosing (by decide) (by decide) rfl rfl rfl
          (fun _ _ h => h) (fun _ _ _ h => h) (fun h => by cases h)
    | dropping =>
        cases hclose
        have hnext : Closing.disconnecting ≠ .entering := by decide
        refine hsound.stays hold hclosing (by decide) hnext rfl rfl rfl ?_ ?_ ?_
        · intro i m hlookup
          dsimp only at hlookup
          split at hlookup
          · exact (lookup_of_lookup_erase hlookup).2
          · exact hlookup
        · intro i m hne hlookup
          dsimp only
          split
          next hown =>
            rw [Finmap.lookup_erase_ne]
            · exact hlookup
            · rintro rfl
              rw [hown, Option.some.injEq] at hlookup
              exact hne hlookup.symm
          next => exact hlookup
        · intro _ i
          exact hsound.not_stored_after_drop hlink i
    | disconnecting =>
        cases hclose
        exact hsound.disconnects hold hclosing hlink rfl rfl rfl rfl

/-! ### The other turns -/

theorem lt_of_mem_range_origins {s : Lifecycle} (hsound : s.Sound) {n : ℕ}
    {point : ReadLoopPoint} (hreads : .readLoop n point ∈ s.routines) :
    n < s.links.length := by
  have horigin : n ∈ s.routines.filterMap (·.origin) :=
    List.mem_filterMap.mpr ⟨_, hreads, rfl⟩
  exact List.mem_range.mp (hsound.origins.mem_iff.mp horigin)

/-- A handshake that ended well leaves a new connection, which takes the place
of an older one of the same peer. -/
theorem Sound.stores {s s' : Lifecycle} (hsound : s.Sound) {position : ℕ}
    {peerID : Bytes}
    (hold : s.routines[position]? = some (.establish (.verified peerID)))
    (hroutines : s'.routines =
      s.routines.set position (.establish (.stored s.links.length)))
    (hcancelled : s'.cancelled = s.cancelled)
    (hlinks : s'.links = s.links ++ [{ peerID := peerID }])
    (hconns : s'.conns = s.conns.insert peerID s.links.length) :
    s'.Sound := by
  have hlink : ∀ n, n < s.links.length → s'.links[n]? = s.links[n]? := by
    intro n hn
    rw [hlinks, List.getElem?_append_left hn]
  have hnew : s'.links[s.links.length]? = some { peerID := peerID } := by
    rw [hlinks, List.getElem?_concat_length]
  have honce : ∀ n, n < s.links.length → s'.onceOf n = s.onceOf n := by
    intro n hn
    unfold onceOf
    rw [hlink n hn]
  have hid : ∀ n, n < s.links.length → s'.idOf n = s.idOf n := by
    intro n hn
    unfold idOf
    rw [hlink n hn]
  have hknown : ∀ n i, s.idOf n = some i → n < s.links.length := by
    intro n i hn
    rcases Option.map_eq_some_iff.mp hn with ⟨link, hat, -⟩
    exact (List.getElem?_eq_some_iff.mp hat).1
  have hbound : ∀ n state, s'.onceOf n = some state →
      n < s.links.length ∨ (n = s.links.length ∧ state = .unused) := by
    intro n state hstate
    rcases Option.map_eq_some_iff.mp hstate with ⟨link, hat, honce⟩
    rw [hlinks] at hat
    rcases getElem?_concat_cases hat with hbefore | ⟨hn, rfl⟩
    · exact .inl (List.getElem?_eq_some_iff.mp hbefore).1
    · exact .inr ⟨hn, honce.symm⟩
  have hreplaced : ∀ n, s.Replaced n → s'.Replaced n := by
    rintro n ⟨newer, i, hlt, hidn, hidnewer⟩
    refine ⟨newer, i, hlt, ?_, ?_⟩
    · rw [hid n (hknown n i hidn)]
      exact hidn
    · rw [hid newer (hknown newer i hidnewer)]
      exact hidnewer
  have hlookups : ∀ i n, s'.conns.lookup i = some n →
      (i = peerID ∧ n = s.links.length) ∨
        (i ≠ peerID ∧ s.conns.lookup i = some n) := by
    intro i n hlookup
    rw [hconns] at hlookup
    by_cases hi : i = peerID
    · subst hi
      rw [Finmap.lookup_insert, Option.some.injEq] at hlookup
      exact .inl ⟨rfl, hlookup.symm⟩
    · rw [Finmap.lookup_insert_of_ne _ hi] at hlookup
      exact .inr ⟨hi, hlookup⟩
  have hheld : (s'.routines.filterMap (·.holds)).Perm
      (s.routines.filterMap (·.holds)) := by
    rw [hroutines]
    exact holders_perm hold _
  have hmem : ∀ routine ∈ s'.routines, routine ∈ s.routines ∨
      routine = .establish (.stored s.links.length) := by
    intro routine hroutine
    rw [hroutines] at hroutine
    exact List.mem_or_eq_of_mem_set hroutine
  constructor
  · intro i n hlookup
    rcases hlookups i n hlookup with ⟨rfl, rfl⟩ | ⟨-, hbefore⟩
    · unfold idOf
      rw [hnew, Option.map_some]
    · have hidn := hsound.stored hbefore
      rw [hid n (hknown n i hidn)]
      exact hidn
  · have hperm := filterMap_set_perm (·.origin) hold
      (.establish (.stored s.links.length))
    rw [hroutines, hlinks, List.length_append, List.length_singleton,
      List.range_succ]
    calc
      List.Perm _ (s.links.length :: s.routines.filterMap (·.origin)) := hperm
      List.Perm _ (s.links.length :: List.range s.links.length) :=
        hsound.origins.cons _
      List.Perm _ _ := (List.perm_append_singleton _ _).symm
  · intro routine hroutine n hn
    rw [hlinks, List.length_append, List.length_singleton]
    rcases hmem routine hroutine with hbefore | rfl
    · have hlt := hsound.mentioned routine hbefore n hn
      omega
    · rw [List.mem_singleton.mp hn]
      omega
  · exact hheld.nodup_iff.mpr hsound.exclusive
  · intro n
    rw [hheld.mem_iff, hsound.running]
    by_cases hn : n < s.links.length
    · rw [honce n hn]
    · constructor
      · intro hrunning
        rcases Option.map_eq_some_iff.mp hrunning with ⟨link, hat, -⟩
        exact absurd (List.getElem?_eq_some_iff.mp hat).1 hn
      · intro hrunning
        rcases hbound n _ hrunning with hlt | ⟨-, hunused⟩
        · exact absurd hlt hn
        · cases hunused
  · intro routine hroutine n graceful hclosing i hlookup
    rcases hmem routine hroutine with hbefore | rfl
    · rcases hlookups i n hlookup with ⟨-, rfl⟩ | ⟨-, hstored⟩
      · have hlt := hsound.mentioned routine hbefore _
          (Goroutine.mem_mentions_of_closing hclosing)
        omega
      · exact hsound.dropped routine hbefore n graceful hclosing i hstored
    · cases hclosing
  · intro n hdone
    rcases hbound n _ hdone with hlt | ⟨-, hunused⟩
    · rw [honce n hlt] at hdone
      rcases hsound.done n hdone with ⟨hclosed, hgone⟩
      refine ⟨?_, ?_⟩
      · unfold socketClosed
        rw [hlink n hlt]
        exact hclosed
      · intro i hlookup
        rcases hlookups i n hlookup with ⟨-, rfl⟩ | ⟨-, hstored⟩
        · omega
        · exact hgone i hstored
    · cases hunused
  · intro n hfinished
    rcases hmem _ hfinished with hbefore | hnew
    · rw [honce n (lt_of_mem_range_origins hsound hbefore)]
      exact hsound.left n hbefore
    · cases hnew
  · intro n i hunused hidn
    rcases hbound n _ hunused with hlt | ⟨rfl, -⟩
    · rw [honce n hlt] at hunused
      rw [hid n hlt] at hidn
      rcases hsound.unclosed n i hunused hidn with hlookup | hbefore
      · by_cases hi : i = peerID
        · subst hi
          right
          refine ⟨s.links.length, i, hlt, ?_, ?_⟩
          · rw [hid n hlt]
            exact hidn
          · unfold idOf
            rw [hnew, Option.map_some]
        · left
          rw [hconns, Finmap.lookup_insert_of_ne _ hi]
          exact hlookup
      · exact .inr (hreplaced n hbefore)
    · left
      unfold idOf at hidn
      rw [hnew, Option.map_some, Option.some.injEq] at hidn
      rw [hconns, ← hidn]
      exact Finmap.lookup_insert _
  · intro routine hroutine hafter
    rw [hcancelled]
    rcases hmem routine hroutine with hbefore | rfl
    · exact hsound.cancelled routine hbefore hafter
    · cases hafter
  · intro routine hroutine rest hrest n hread hunused
    rcases hmem routine hroutine with hbefore | rfl
    · rcases hmem _ hread with hreads | hnew
      · rw [honce n (lt_of_mem_range_origins hsound hreads)] at hunused
        exact (hsound.aimed routine hbefore rest hrest n hreads
          hunused).imp_right (hreplaced n)
      · cases hnew
    · cases hrest

/-- A turn of a read loop between its closes: it may enter a `Close` but does
not come back from one, and it reads only if the context is not cancelled. -/
theorem advanceReadLoop_spec {s t : Lifecycle} {n : ℕ}
    {point point' : ReadLoopPoint} {turn : Turn}
    (hmoved : s.advanceReadLoop n point turn = some (t, point')) :
    (t = s ∨ t = s.callHandler n) ∧
      (Goroutine.readLoop n point').holds = none ∧ point' ≠ .finished ∧
      (point' = .reading → s.cancelled = false) := by
  unfold advanceReadLoop at hmoved
  split at hmoved
  next =>
    cases hmoved
    refine ⟨.inl rfl, ?_⟩
    cases s.cancelled <;> simp [Goroutine.holds, Goroutine.closing]
  next =>
    split at hmoved <;> cases hmoved
    exact ⟨.inl rfl, rfl, by simp, by simp⟩
  next =>
    cases hmoved
    exact ⟨.inl rfl, rfl, by simp, by simp⟩
  next =>
    cases hmoved
    exact ⟨.inl rfl, rfl, by simp, by simp⟩
  next =>
    split at hmoved <;> cases hmoved
    exact ⟨.inl rfl, rfl, by simp, by simp⟩
  next =>
    cases hmoved
    exact ⟨.inl rfl, rfl, by simp, by simp⟩
  next =>
    cases hmoved
    exact ⟨.inr rfl, rfl, by simp, by simp⟩
  next =>
    cases hmoved
    exact ⟨.inl rfl, rfl, by simp, by simp⟩
  next =>
    split at hmoved <;> cases hmoved
    exact ⟨.inl rfl, rfl, by simp, by simp⟩
  next => cases hmoved

theorem Sound.readLoop {s t : Lifecycle} (hsound : s.Sound) {position n : ℕ}
    {point point' : ReadLoopPoint} {turn : Turn}
    (hold : s.routines[position]? = some (.readLoop n point))
    (hclosing : (Goroutine.readLoop n point).closing = none)
    (hmoved : s.advanceReadLoop n point turn = some (t, point')) :
    ({ t with routines := t.routines.set position (.readLoop n point') } :
      Lifecycle).Sound := by
  have hlt := lt_of_mem_range_origins hsound (List.mem_of_getElem? hold)
  have hholds : (Goroutine.readLoop n point).holds = none := by
    unfold Goroutine.holds
    rw [hclosing]
  rcases advanceReadLoop_spec hmoved with
    ⟨hstate, hholds', hfinished, hreading⟩
  have hparts : t.links = s.links ∧ t.conns = s.conns ∧
      t.cancelled = s.cancelled ∧ t.routines = s.routines := by
    rcases hstate with rfl | rfl <;> exact ⟨rfl, rfl, rfl, rfl⟩
  rcases hparts with ⟨hlinks, hconns, hcancelled, hroutines⟩
  refine hsound.moved [] hold hlinks hconns ?_ ?_ ?_ (by simp) hholds hholds'
    ?_ ?_ ?_ ?_ ?_
  · intro hset
    exact hcancelled.trans hset
  · simp [hroutines]
  · simp [Goroutine.origin]
  · intro routine hroutine m hm
    rw [List.mem_singleton] at hroutine
    subst hroutine
    rw [List.mem_singleton.mp hm]
    exact hlt
  · intro m hleft
    cases hleft
    exact absurd rfl hfinished
  · intro m hreads
    cases hreads
    exact hreading rfl
  · intro hafter
    cases hafter
  · intro rest hrest
    cases hrest

/-- A goroutine that is no read loop moves on and starts no other one. -/
theorem Sound.moved_alone {s s' : Lifecycle} (hsound : s.Sound) {position : ℕ}
    {old new : Goroutine} (hold : s.routines[position]? = some old)
    (hlinks : s'.links = s.links) (hconns : s'.conns = s.conns)
    (hcancelled : s.cancelled = true → s'.cancelled = true)
    (hroutines : s'.routines = s.routines.set position new)
    (horigin : old.origin = none) (horigin' : new.origin = none)
    (hholds : old.holds = none) (hholds' : new.holds = none)
    (hmentions : ∀ n ∈ new.mentions, n < s.links.length)
    (hcancels : new.hasCancelled = true → s'.cancelled = true)
    (haimed : ∀ rest, new.remaining = some rest →
      ∀ n, Goroutine.readLoop n .reading ∈ s.routines →
        s.onceOf n = some .unused → n ∈ rest ∨ s.Replaced n) :
    s'.Sound := by
  refine hsound.moved [] hold hlinks hconns hcancelled ?_ ?_ (by simp) hholds
    hholds' ?_ ?_ ?_ hcancels haimed
  · rw [hroutines, List.append_nil]
  · simp [horigin, horigin']
  · intro routine hroutine
    rw [List.mem_singleton.mp hroutine]
    exact hmentions
  · rintro n rfl
    cases horigin'
  · rintro n rfl
    cases horigin'

theorem holds_of_advanceKeepalive {s : Lifecycle} {n : ℕ}
    {point point' : KeepalivePoint} {turn : Turn}
    (hmoved : s.advanceKeepalive point turn = some point') :
    (Goroutine.keepalive n point').holds = none := by
  unfold advanceKeepalive at hmoved
  split at hmoved
  next =>
    split at hmoved <;> cases hmoved
    rfl
  next =>
    cases hmoved
    split <;> rfl
  next =>
    cases hmoved
    rfl
  next =>
    cases hmoved
    rfl
  next => cases hmoved

theorem Sound.keepalive {s : Lifecycle} (hsound : s.Sound) {position n : ℕ}
    {point point' : KeepalivePoint} {turn : Turn}
    (hold : s.routines[position]? = some (.keepalive n point))
    (hclosing : (Goroutine.keepalive n point).closing = none)
    (hmoved : s.advanceKeepalive point turn = some point') :
    ({ s with routines := s.routines.set position (.keepalive n point') } :
      Lifecycle).Sound := by
  have hholds : (Goroutine.keepalive n point).holds = none := by
    unfold Goroutine.holds
    rw [hclosing]
  have hholds' := holds_of_advanceKeepalive (n := n) hmoved
  refine hsound.moved_alone hold rfl rfl id rfl rfl rfl hholds hholds' ?_ ?_ ?_
  · have hmentioned := hsound.mentioned _ (List.mem_of_getElem? hold)
    exact hmentioned
  · intro hafter
    cases hafter
  · intro rest hrest
    cases hrest

theorem set_spawn {s : Lifecycle} {position : ℕ} {old : Goroutine}
    (hold : s.routines[position]? = some old) (new added : Goroutine) :
    (s.spawn added).routines.set position new =
      s.routines.set position new ++ [added] :=
  List.set_append_left _ _ (List.getElem?_eq_some_iff.mp hold).1

theorem Sound.establish {s t : Lifecycle} (hsound : s.Sound) {position : ℕ}
    {point point' : EstablishPoint} {turn : Turn}
    (hold : s.routines[position]? = some (.establish point))
    (hmoved : s.advanceEstablish point turn = some (t, point')) :
    ({ t with routines := t.routines.set position (.establish point') } :
      Lifecycle).Sound := by
  have hmentioned := hsound.mentioned _ (List.mem_of_getElem? hold)
  unfold advanceEstablish at hmoved
  split at hmoved
  next =>
    cases hmoved
    exact hsound.stores hold rfl rfl rfl rfl
  next n =>
    cases hmoved
    refine hsound.moved [.readLoop n .top] hold rfl rfl id
      (set_spawn hold _ _) (List.Perm.refl _) ?_ rfl rfl ?_ ?_ ?_ ?_ ?_
    · intro routine hroutine
      rw [List.mem_singleton.mp hroutine]
      exact ⟨rfl, rfl, by simp, by simp⟩
    · intro routine hroutine m hm
      apply hmentioned m
      simp only [List.mem_cons, List.not_mem_nil, or_false] at hroutine
      rcases hroutine with rfl | rfl <;> exact hm
    · intro m hfinished
      cases hfinished
    · intro m hreading
      cases hreading
    · intro hafter
      cases hafter
    · intro rest hrest
      cases hrest
  next n =>
    cases hmoved
    refine hsound.moved [.keepalive n .waiting] hold rfl rfl id
      (set_spawn hold _ _) (List.Perm.refl _) ?_ rfl rfl ?_ ?_ ?_ ?_ ?_
    · intro routine hroutine
      rw [List.mem_singleton.mp hroutine]
      exact ⟨rfl, rfl, by simp, by simp⟩
    · intro routine hroutine m hm
      apply hmentioned m
      simp only [List.mem_cons, List.not_mem_nil, or_false] at hroutine
      rcases hroutine with rfl | rfl
      · cases hm
      · exact hm
    · intro m hfinished
      cases hfinished
    · intro m hreading
      cases hreading
    · intro hafter
      cases hafter
    · intro rest hrest
      cases hrest
  next => cases hmoved

/-- The snapshot has all connections but those that are closed or replaced. -/
theorem Sound.collects {s : Lifecycle} (hsound : s.Sound)
    {connections : List ℕ} (hcollects : s.Collects connections) {n : ℕ}
    (hunused : s.onceOf n = some .unused) : n ∈ connections ∨ s.Replaced n := by
  have hlink := hunused
  rcases Option.map_eq_some_iff.mp hlink with ⟨link, hat, -⟩
  have hid : s.idOf n = some link.peerID := by
    unfold idOf
    rw [hat, Option.map_some]
  rcases hsound.unclosed n link.peerID hunused hid with hlookup | hreplaced
  · have hkey : link.peerID ∈ s.conns.keys := by
      rw [Finmap.mem_keys, ← Finmap.lookup_isSome, hlookup]
      rfl
    rcases hcollects.2.1 link.peerID hkey with ⟨m, hm, hm'⟩
    rw [hlookup, Option.some.injEq] at hm'
    subst hm'
    exact .inl hm
  · exact .inr hreplaced

theorem Sound.lt_of_collects {s : Lifecycle} (hsound : s.Sound)
    {connections : List ℕ} (hcollects : s.Collects connections) {n : ℕ}
    (hn : n ∈ connections) : n < s.links.length := by
  rcases hcollects.2.2 n hn with ⟨i, -, hlookup⟩
  rcases Option.map_eq_some_iff.mp (hsound.stored hlookup) with ⟨link, hat, -⟩
  exact (List.getElem?_eq_some_iff.mp hat).1

theorem Sound.stop {s t : Lifecycle} (hsound : s.Sound) {position : ℕ}
    {point point' : StopPoint} {turn : Turn}
    (hold : s.routines[position]? = some (.stop point))
    (hclosing : (Goroutine.stop point).closing = none)
    (hmoved : s.advanceStop point turn = some (t, point')) :
    ({ t with routines := t.routines.set position (.stop point') } :
      Lifecycle).Sound := by
  have hmem := List.mem_of_getElem? hold
  have hholds : (Goroutine.stop point).holds = none := by
    unfold Goroutine.holds
    rw [hclosing]
  -- Every point but the first and the snapshot leads on without connections.
  have hgoes : ∀ {new : StopPoint}, point ≠ .called →
      (Goroutine.stop new).holds = none → (Goroutine.stop new).mentions = [] →
      ((Goroutine.stop new).remaining = none ∨
        (Goroutine.stop new).remaining = (Goroutine.stop point).remaining) →
      t.links = s.links → t.conns = s.conns → t.cancelled = s.cancelled →
      t.routines = s.routines →
      ({ t with routines := t.routines.set position (.stop new) } :
        Lifecycle).Sound := by
    intro new hcalled hnew hmentions hremaining hlinks hconns hcancelled
      hroutines
    have hset : s.cancelled = true := by
      apply hsound.cancelled _ hmem
      simp [Goroutine.hasCancelled, hcalled]
    refine hsound.moved_alone hold hlinks hconns ?_ ?_ rfl rfl hholds hnew ?_ ?_
      ?_
    · intro _
      exact hcancelled.trans hset
    · rw [hroutines]
    · rw [hmentions]
      simp
    · intro _
      exact hcancelled.trans hset
    · intro rest hrest
      rcases hremaining with hnone | hsame
      · rw [hnone] at hrest
        cases hrest
      · rw [hsame] at hrest
        exact hsound.aimed _ hmem rest hrest
  unfold advanceStop at hmoved
  split at hmoved
  next =>
    cases hmoved
    have hset : s.cancel.links = s.links ∧ s.cancel.conns = s.conns ∧
        s.cancel.cancelled = true ∧ s.cancel.routines = s.routines := by
      unfold cancel
      split
      next h => exact ⟨rfl, rfl, h, rfl⟩
      next => exact ⟨rfl, rfl, rfl, rfl⟩
    rcases hset with ⟨hlinks, hconns, hset, hroutines⟩
    have hroutines' : s.cancel.routines.set position (.stop .cancelled) =
        s.routines.set position (.stop .cancelled) := by rw [hroutines]
    refine hsound.moved_alone hold hlinks hconns (fun _ => hset) hroutines' rfl
      rfl hholds rfl ?_ (fun _ => hset) ?_
    · intro n hn
      cases hn
    · intro rest hrest
      cases hrest
  next connections =>
    split at hmoved
    next hcollects =>
      cases hmoved
      refine hsound.moved_alone hold rfl rfl id rfl rfl rfl hholds ?_ ?_ ?_ ?_
      · cases connections <;> rfl
      · intro n hn
        exact hsound.lt_of_collects hcollects hn
      · intro _
        exact hsound.cancelled _ hmem rfl
      · intro rest hrest n _ hunused
        cases hrest
        exact hsound.collects hcollects hunused
    next => cases hmoved
  next =>
    cases hmoved
    exact hgoes (by simp) rfl rfl (.inr rfl) rfl rfl rfl rfl
  next =>
    cases hmoved
    exact hgoes (by simp) rfl rfl (.inr rfl) rfl rfl rfl rfl
  next =>
    split at hmoved
    · cases hmoved
      exact hgoes (by simp) rfl rfl (.inl rfl) rfl rfl rfl rfl
    · cases hmoved
  next =>
    split at hmoved
    · cases hmoved
      exact hgoes (by simp) rfl rfl (.inl rfl) rfl rfl rfl rfl
    · cases hmoved
  next => cases hmoved

/-! ### Runs -/

/-- A turn of a goroutine that is not closing a connection. -/
inductive OpenTurn (s : Lifecycle) (turn : Turn) :
    Goroutine → Lifecycle → Goroutine → Prop where
  | read {n : ℕ} {point : ReadLoopPoint} {moved : Lifecycle × ReadLoopPoint}
      (hmove : s.advanceReadLoop n point turn = some moved) :
      OpenTurn s turn (.readLoop n point) moved.1 (.readLoop n moved.2)
  | kept {n : ℕ} {point moved : KeepalivePoint}
      (hmove : s.advanceKeepalive point turn = some moved) :
      OpenTurn s turn (.keepalive n point) s (.keepalive n moved)
  | served : OpenTurn s turn (.serve false) s (.serve true)
  | cleaned : OpenTurn s turn (.cleanup false) s (.cleanup true)
  | established {point : EstablishPoint} {moved : Lifecycle × EstablishPoint}
      (hmove : s.advanceEstablish point turn = some moved) :
      OpenTurn s turn (.establish point) moved.1 (.establish moved.2)
  | stopped {point : StopPoint} {moved : Lifecycle × StopPoint}
      (hmove : s.advanceStop point turn = some moved) :
      OpenTurn s turn (.stop point) moved.1 (.stop moved.2)

inductive Turned (s : Lifecycle) (turn : Turn) :
    Goroutine → Lifecycle → Goroutine → Prop where
  | closed {old : Goroutine} {n : ℕ} {graceful : Bool} {stage : Closing}
      {moved : Lifecycle × Option Closing}
      (hclosing : old.closing = some (n, graceful, stage))
      (hclose : s.close n graceful stage = some moved) :
      Turned s turn old moved.1 (old.resume moved.2)
  | opened {old new : Goroutine} {t : Lifecycle} (hclosing : old.closing = none)
      (hopen : OpenTurn s turn old t new) : Turned s turn old t new

theorem advanceOpen_turn {s t : Lifecycle} {old new : Goroutine} {turn : Turn}
    (hmoved : s.advanceOpen old turn = some (t, new)) :
    OpenTurn s turn old t new := by
  unfold advanceOpen at hmoved
  split at hmoved
  · rcases Option.map_eq_some_iff.mp hmoved with ⟨moved, hmove, heq⟩
    cases heq
    exact .read hmove
  · rcases Option.map_eq_some_iff.mp hmoved with ⟨moved, hmove, heq⟩
    cases heq
    exact .kept hmove
  next finished =>
    cases finished <;> split at hmoved <;> cases hmoved
    · exact .served
    next htrue => cases htrue
  next finished =>
    cases finished <;> split at hmoved <;> cases hmoved
    · exact .cleaned
    next htrue => cases htrue
  · rcases Option.map_eq_some_iff.mp hmoved with ⟨moved, hmove, heq⟩
    cases heq
    exact .established hmove
  · cases hmoved
  · rcases Option.map_eq_some_iff.mp hmoved with ⟨moved, hmove, heq⟩
    cases heq
    exact .stopped hmove

theorem advance_turn {s t : Lifecycle} {old new : Goroutine} {turn : Turn}
    (hmoved : s.advance old turn = some (t, new)) : Turned s turn old t new := by
  unfold advance at hmoved
  split at hmoved
  next n graceful stage hclosing =>
    split at hmoved
    · rcases Option.map_eq_some_iff.mp hmoved with ⟨moved, hclose, heq⟩
      cases heq
      exact .closed hclosing hclose
    · cases hmoved
  next hclosing => exact .opened hclosing (advanceOpen_turn hmoved)

theorem Sound.advance {s t : Lifecycle} (hsound : s.Sound) {position : ℕ}
    {old new : Goroutine} {turn : Turn}
    (hold : s.routines[position]? = some old)
    (hmoved : s.advance old turn = some (t, new)) :
    ({ t with routines := t.routines.set position new } : Lifecycle).Sound := by
  cases advance_turn hmoved with
  | closed hclosing hclose => exact hsound.close hold hclosing hclose
  | opened hclosing hopen =>
      cases hopen with
      | read hmove => exact hsound.readLoop hold hclosing hmove
      | kept hmove => exact hsound.keepalive hold hclosing hmove
      | served | cleaned =>
          exact hsound.moved_alone hold rfl rfl id rfl rfl rfl rfl rfl (by simp
            [Goroutine.mentions]) (fun h => by cases h) (fun _ h => by cases h)
      | established hmove => exact hsound.establish hold hmove
      | stopped hmove => exact hsound.stop hold hclosing hmove

theorem Sound.next? {s s' : Lifecycle} (hsound : s.Sound)
    {action : LifecycleAction} (hnext : s.next? action = some s') :
    s'.Sound := by
  cases action with
  | start =>
      unfold Lifecycle.next? at hnext
      dsimp only at hnext
      split at hnext
      · cases hnext
      · cases hnext
        have hserves : ({ s with hasServer := true } : Lifecycle).Sound :=
          ⟨hsound.stored, hsound.origins, hsound.mentioned, hsound.exclusive,
            hsound.running, hsound.dropped, hsound.done, hsound.left,
            hsound.unclosed, hsound.cancelled, hsound.aimed⟩
        have hserve := hserves.spawned (.plain (.serve false) rfl rfl rfl) rfl
          (by simp [Goroutine.mentions])
        exact hserve.spawned (.plain (.cleanup false) rfl rfl rfl) rfl
          (by simp [Goroutine.mentions])
  | establish peerID =>
      cases hnext
      exact hsound.spawned (.plain _ rfl rfl rfl) rfl
        (by simp [Goroutine.mentions])
  | close n graceful =>
      unfold Lifecycle.next? at hnext
      dsimp only at hnext
      split at hnext
      next hlt =>
        cases hnext
        exact hsound.spawned (.plain _ rfl rfl rfl) rfl
          (by simpa [Goroutine.mentions] using hlt)
      next => cases hnext
  | stop =>
      cases hnext
      exact hsound.spawned (.plain _ rfl rfl rfl) rfl
        (by simp [Goroutine.mentions])
  | handlerStops position =>
      unfold Lifecycle.next? at hnext
      dsimp only at hnext
      split at hnext
      next n hold =>
        cases hnext
        have hmentioned := hsound.mentioned _ (List.mem_of_getElem? hold)
        refine hsound.moved [.stop .called] hold rfl rfl id rfl
          (List.Perm.refl _) ?_ rfl rfl ?_ ?_ ?_ ?_ ?_
        · intro routine hroutine
          rw [List.mem_singleton.mp hroutine]
          exact .plain _ rfl rfl rfl
        · intro routine hroutine m hm
          simp only [List.mem_cons, List.not_mem_nil, or_false] at hroutine
          rcases hroutine with rfl | rfl
          · exact hmentioned m hm
          · cases hm
        · intro m hfinished
          cases hfinished
        · intro m hreading
          cases hreading
        · intro hafter
          cases hafter
        · intro rest hrest
          cases hrest
      next => cases hnext
  | turn position turn =>
      unfold Lifecycle.next? at hnext
      dsimp only at hnext
      split at hnext
      · cases hnext
      next old hold =>
        rcases Option.map_eq_some_iff.mp hnext with ⟨moved, hmoved, rfl⟩
        exact hsound.advance hold hmoved

theorem invariant_of_next? {P : Lifecycle → Prop} (hinitial : P {})
    (hstep : ∀ {before after : Lifecycle} {action : LifecycleAction},
      machine.Reachable before → P before →
        before.next? action = some after → P after)
    {s : Lifecycle} (hreachable : machine.Reachable s) : P s := by
  apply hreachable.invariant
  · rintro start rfl
    exact hinitial
  · intro before action hbefore hholds henabled _
    rcases Option.isSome_iff_exists.mp henabled with ⟨after, hnext⟩
    have hafter : machine.next before action = after := by
      simp [machine, hnext]
    rw [hafter]
    exact hstep hbefore.reachable hholds hnext

theorem reachable_sound {s : Lifecycle} (hreachable : machine.Reachable s) :
    s.Sound :=
  invariant_of_next? sound_initial
    (fun _ hbefore hnext => hbefore.next? hnext) hreachable

end Lifecycle

end GoP2P.Node
