import GoP2P.Processes

/-!
# Read-write locks

Where a process of a pool stands decides whether it holds a lock, for reading
or for writing.  A process may take the lock for reading while no other has it
for writing, and for writing while no other has it at all; so a process that
has it for writing has it alone.
-/

namespace GoP2P

inductive Hold where
  | free
  | reading
  | writing
  deriving DecidableEq, Repr

namespace ReadWriteLock

variable {α : Type*} (hold : α → Hold)

def CanRead (pool : List α) : Prop := ∀ x ∈ pool, hold x ≠ .writing

def CanWrite (pool : List α) : Prop := ∀ x ∈ pool, hold x = .free

instance (pool : List α) : Decidable (CanRead hold pool) :=
  inferInstanceAs (Decidable (∀ x ∈ pool, hold x ≠ .writing))

instance (pool : List α) : Decidable (CanWrite hold pool) :=
  inferInstanceAs (Decidable (∀ x ∈ pool, hold x = .free))

/-- Who holds the lock for writing holds it alone. -/
def Exclusive (pool : List α) : Prop :=
  ∀ ⦃i j : ℕ⦄ ⦃x y : α⦄, pool[i]? = some x → pool[j]? = some y → i ≠ j →
    hold x = .writing → hold y = .free

/-- A process that steps keeps what it holds, gives it up, or takes what it
may. -/
inductive Steps (pool : List α) (old new : α) : Prop where
  | keeps (hsame : hold new = hold old)
  | releases (hfree : hold new = .free)
  | reads (hreading : hold new = .reading) (hcan : CanRead hold pool)
  | writes (hwriting : hold new = .writing) (hcan : CanWrite hold pool)

variable {hold}

theorem exclusive_nil : Exclusive hold [] := by
  intro i j x y hx
  cases hx

theorem Exclusive.concat {pool : List α} (hexclusive : Exclusive hold pool)
    {new : α} (hfree : hold new = .free) : Exclusive hold (pool ++ [new]) := by
  intro i j x y hx hy hij hwriting
  rcases getElem?_concat_cases hx with hx | ⟨hi, rfl⟩
  · rcases getElem?_concat_cases hy with hy | ⟨-, rfl⟩
    · exact hexclusive hx hy hij hwriting
    · exact hfree
  · rw [hfree] at hwriting
    cases hwriting

theorem Exclusive.set {pool : List α} (hexclusive : Exclusive hold pool)
    {position : ℕ} {old new : α} (hold_old : pool[position]? = some old)
    (hsteps : Steps hold pool old new) :
    Exclusive hold (pool.set position new) := by
  intro i j x y hx hy hij hwriting
  rcases getElem?_set_cases hx with ⟨rfl, rfl⟩ | ⟨-, hfirst⟩
  · -- The process that steps has the lock for writing.
    rcases getElem?_set_cases hy with ⟨rfl, -⟩ | ⟨-, hsecond⟩
    · exact absurd rfl hij
    cases hsteps with
    | keeps hsame =>
        rw [hsame] at hwriting
        exact hexclusive hold_old hsecond hij hwriting
    | releases hfree =>
        rw [hfree] at hwriting
        cases hwriting
    | reads hreading =>
        rw [hreading] at hwriting
        cases hwriting
    | writes _ hcan => exact hcan y (List.mem_of_getElem? hsecond)
  · rcases getElem?_set_cases hy with ⟨rfl, rfl⟩ | ⟨-, hsecond⟩
    · -- Another has it, so the one that steps cannot have taken it.
      have hbefore := hexclusive hfirst hold_old hij hwriting
      have hmem := List.mem_of_getElem? hfirst
      cases hsteps with
      | keeps hsame => exact hsame.trans hbefore
      | releases hfree => exact hfree
      | reads _ hcan => exact absurd hwriting (hcan x hmem)
      | writes _ hcan =>
          rw [hcan x hmem] at hwriting
          cases hwriting
    · exact hexclusive hfirst hsecond hij hwriting

end ReadWriteLock

end GoP2P
