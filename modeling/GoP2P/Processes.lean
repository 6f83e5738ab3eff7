import Mathlib.Tactic

/-!
# Lists of processes

A pool of concurrent processes is the list of their states: starting one
appends to it, and a step of one replaces the element at its position.  The
lemmas say which process a position of the new list holds, and how the number
of processes with a property changes.
-/

namespace GoP2P

variable {α : Type*}

theorem getElem?_set_cases {l : List α} {i j : ℕ} {a x : α}
    (hx : (l.set i a)[j]? = some x) :
    (j = i ∧ x = a) ∨ (j ≠ i ∧ l[j]? = some x) := by
  by_cases hj : j = i
  · subst hj
    have hlt : j < l.length := by
      have := (List.getElem?_eq_some_iff.mp hx).1
      simpa using this
    rw [List.getElem?_set_self hlt, Option.some.injEq] at hx
    exact .inl ⟨rfl, hx.symm⟩
  · rw [List.getElem?_set_ne (Ne.symm hj)] at hx
    exact .inr ⟨hj, hx⟩

theorem set_eq_of_getElem? {l : List α} {i : ℕ} {a : α}
    (ha : l[i]? = some a) : l.set i a = l := by
  rcases List.getElem?_eq_some_iff.mp ha with ⟨hi, rfl⟩
  exact List.set_getElem_self hi

theorem mem_set_of_ne {l : List α} {i : ℕ} {old new x : α}
    (hold : l[i]? = some old) (hx : x ∈ l) (hne : x ≠ old) :
    x ∈ l.set i new := by
  rcases List.getElem?_of_mem hx with ⟨j, hj⟩
  have hij : i ≠ j := by
    intro h
    subst h
    rw [hold, Option.some.injEq] at hj
    exact hne hj.symm
  apply List.mem_of_getElem?
  rw [List.getElem?_set_ne hij]
  exact hj

theorem getElem?_concat_cases {l : List α} {j : ℕ} {a x : α}
    (hx : (l ++ [a])[j]? = some x) :
    l[j]? = some x ∨ (j = l.length ∧ x = a) := by
  by_cases hj : j < l.length
  · rw [List.getElem?_append_left hj] at hx
    exact .inl hx
  · rw [List.getElem?_append_right (by omega)] at hx
    rcases List.getElem?_eq_some_iff.mp hx with ⟨hlt, hnew⟩
    simp only [List.length_singleton, Nat.lt_one_iff] at hlt
    simp only [List.getElem_singleton] at hnew
    exact .inr ⟨by omega, hnew.symm⟩

theorem getElem?_concat_of_some {l : List α} {j : ℕ} {x : α}
    (hx : l[j]? = some x) (a : α) : (l ++ [a])[j]? = some x := by
  rw [List.getElem?_append_left (List.getElem?_eq_some_iff.mp hx).1]
  exact hx

theorem getElem?_modify_of_some {l : List α} {i : ℕ} {old : α}
    (hold : l[i]? = some old) (f : α → α) (j : ℕ) :
    (l.modify i f)[j]? = if i = j then some (f old) else l[j]? := by
  rw [List.getElem?_modify]
  split_ifs with hij
  · rw [← hij, hold]
    rfl
  · exact id_map _

/-- The process at a position is the one that steps, or it stays. -/
theorem exists_getElem?_set {l : List α} {i j : ℕ} {old new x : α}
    (hold : l[i]? = some old) (hx : l[j]? = some x) {p : α → Prop}
    (hsteps : i = j → old = x → p new) (hstays : p x) :
    ∃ y, (l.set i new)[j]? = some y ∧ p y := by
  by_cases hij : i = j
  · subst hij
    rw [hold, Option.some.injEq] at hx
    have hlt := (List.getElem?_eq_some_iff.mp hold).1
    exact ⟨new, List.getElem?_set_self hlt, hsteps rfl hx⟩
  · rw [List.getElem?_set_ne hij]
    exact ⟨x, hx, hstays⟩

/-- Some process has a property after a step of one that keeps it exactly if
some process had it before. -/
theorem exists_mem_set_iff {l : List α} {i : ℕ} {old : α}
    (hold : l[i]? = some old) {new : α} {p : α → Prop}
    (hkept : p new ↔ p old) :
    (∃ x ∈ l.set i new, p x) ↔ ∃ x ∈ l, p x := by
  have hi := (List.getElem?_eq_some_iff.mp hold).1
  constructor
  · rintro ⟨x, hx, hpx⟩
    rcases List.mem_or_eq_of_mem_set hx with hmem | rfl
    · exact ⟨x, hmem, hpx⟩
    · exact ⟨old, List.mem_of_getElem? hold, hkept.mp hpx⟩
  · rintro ⟨x, hx, hpx⟩
    by_cases hsame : x = old
    · subst hsame
      exact ⟨new, List.mem_set hi new, hkept.mpr hpx⟩
    · exact ⟨x, mem_set_of_ne hold hx hsame, hpx⟩

theorem exists_mem_of_set {l : List α} {i : ℕ} {new : α} {p : α → Prop}
    (hnew : ¬p new) (hp : ∃ x ∈ l.set i new, p x) : ∃ x ∈ l, p x := by
  rcases hp with ⟨x, hx, hpx⟩
  rcases List.mem_or_eq_of_mem_set hx with hmem | rfl
  · exact ⟨x, hmem, hpx⟩
  · exact absurd hpx hnew

theorem exists_mem_append_iff {l added : List α} {p : α → Prop}
    (hadded : ∀ x ∈ added, ¬p x) :
    (∃ x ∈ l ++ added, p x) ↔ ∃ x ∈ l, p x := by
  constructor
  · intro hp
    rcases hp with ⟨x, hx, hpx⟩
    rcases List.mem_append.mp hx with hold | hnew
    · exact ⟨x, hold, hpx⟩
    · exact absurd hpx (hadded x hnew)
  · intro hp
    rcases hp with ⟨x, hx, hpx⟩
    exact ⟨x, List.mem_append_left _ hx, hpx⟩

theorem countP_set_add (p : α → Bool) {l : List α} {i : ℕ} {old : α}
    (hold : l[i]? = some old) (new : α) :
    (l.set i new).countP p + (p old).toNat = l.countP p + (p new).toNat := by
  rcases List.getElem?_eq_some_iff.mp hold with ⟨hi, rfl⟩
  have hset := List.countP_set (p := p) (a := new) hi
  have hpos : p l[i] = true → 0 < l.countP p := fun hp =>
    List.countP_pos_iff.mpr ⟨l[i], List.getElem_mem hi, hp⟩
  cases hp : p l[i] <;> cases hnew : p new <;> simp_all

/-- What the processes hold, as one list, changes by what the one that steps
gives up and takes. -/
theorem filterMap_set_perm {β : Type*} (f : α → Option β) {l : List α} {i : ℕ}
    {old : α} (hold : l[i]? = some old) (new : α) :
    ((f old).toList ++ (l.set i new).filterMap f).Perm
      ((f new).toList ++ l.filterMap f) := by
  induction l generalizing i with
  | nil => cases hold
  | cons x rest ih =>
      cases i with
      | zero =>
          cases hold
          cases hold : f old <;> cases hnew : f new <;>
            simp [hold, hnew, List.Perm.swap]
      | succ i =>
          have hrest := ih hold
          cases hx : f x with
          | none => simpa [hx] using hrest
          | some b =>
              simp only [List.set_cons_succ, List.filterMap_cons_some hx]
              exact List.perm_middle.trans
                ((hrest.cons b).trans List.perm_middle.symm)

end GoP2P
