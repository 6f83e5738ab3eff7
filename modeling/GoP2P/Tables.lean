import Mathlib.Data.Finmap
import Mathlib.Tactic

/-!
# Tables

Lookups in a finite map from which entries were taken, one key at a time or
all whose value fails a test as a sweep over the map does, and in one that was
filled from a list.
-/

namespace GoP2P

variable {κ α : Type*} [DecidableEq κ]

theorem lookup_of_lookup_erase {table : Finmap fun _ : κ => α}
    {erased key : κ} {a : α}
    (hlookup : (table.erase erased).lookup key = some a) :
    key ≠ erased ∧ table.lookup key = some a := by
  by_cases hkey : key = erased
  · subst hkey
    rw [Finmap.lookup_erase] at hlookup
    cases hlookup
  · rw [Finmap.lookup_erase_ne hkey] at hlookup
    exact ⟨hkey, hlookup⟩

/-- The entries whose value passes the test. -/
def sweep (keep : α → Bool) (table : Finmap fun _ : κ => α) :
    Finmap fun _ : κ => α where
  entries := table.entries.filter fun entry => keep entry.2
  nodupKeys := by
    rw [← Multiset.nodup_keys]
    refine Multiset.nodup_of_le ?_ (Multiset.nodup_keys.mpr table.nodupKeys)
    exact Multiset.map_le_map (Multiset.filter_le _ _)

theorem lookup_sweep (keep : α → Bool) (table : Finmap fun _ : κ => α)
    (key : κ) : (sweep keep table).lookup key =
      (table.lookup key).filter keep := by
  apply Option.ext
  intro a
  rw [← Option.mem_def, Finmap.mem_lookup_iff, Option.filter_eq_some_iff,
    ← Option.mem_def, Finmap.mem_lookup_iff]
  exact Multiset.mem_filter

/-- The elements of a list by their keys; of two with one key the later one
stays. -/
def tabulate (key : α → κ) (elements : List α) : Finmap fun _ : κ => α :=
  elements.foldl (fun table a => table.insert (key a) a) ∅

theorem lookup_tabulate (key : α → κ) (elements : List α) (k : κ) :
    (tabulate key elements).lookup k =
      elements.reverse.find? (key · = k) := by
  unfold tabulate
  induction elements using List.reverseRecOn with
  | nil => rfl
  | append_singleton rest a ih =>
      rw [List.foldl_concat, List.reverse_append, List.reverse_singleton,
        List.singleton_append, List.find?_cons]
      by_cases hk : key a = k
      · subst hk
        rw [Finmap.lookup_insert, decide_eq_true rfl]
      · rw [Finmap.lookup_insert_of_ne _ (Ne.symm hk), ih,
          decide_eq_false hk]

/-- Every entry of such a table stands under its own key. -/
theorem key_of_lookup_tabulate {key : α → κ} {elements : List α} {k : κ}
    {a : α} (hlookup : (tabulate key elements).lookup k = some a) :
    key a = k := by
  rw [lookup_tabulate] at hlookup
  have hkey := List.find?_some hlookup
  exact of_decide_eq_true hkey

theorem mem_of_lookup_tabulate {key : α → κ} {elements : List α} {k : κ}
    {a : α} (hlookup : (tabulate key elements).lookup k = some a) :
    a ∈ elements := by
  rw [lookup_tabulate] at hlookup
  exact List.mem_reverse.mp (List.mem_of_find?_eq_some hlookup)

theorem lookup_tabulate_eq_some_iff {key : α → κ} {elements : List α}
    (hnodup : (elements.map key).Nodup) {k : κ} {a : α} :
    (tabulate key elements).lookup k = some a ↔
      a ∈ elements ∧ key a = k := by
  constructor
  · intro hfound
    exact ⟨mem_of_lookup_tabulate hfound, key_of_lookup_tabulate hfound⟩
  · rintro ⟨hmem, hkey⟩
    cases hfound : (tabulate key elements).lookup k with
    | none =>
        rw [lookup_tabulate, List.find?_eq_none] at hfound
        exact absurd (decide_eq_true hkey)
          (hfound a (List.mem_reverse.mpr hmem))
    | some b =>
        have hsame : key b = key a :=
          (key_of_lookup_tabulate hfound).trans hkey.symm
        rw [List.inj_on_of_nodup_map hnodup (mem_of_lookup_tabulate hfound)
          hmem hsame]

end GoP2P
