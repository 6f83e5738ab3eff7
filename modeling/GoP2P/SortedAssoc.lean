import Mathlib.Data.List.Sort
import Mathlib.Data.Prod.Lex
import Mathlib.Tactic

/-!
# Maps as sorted association lists

A finite map over an ordered key type is represented by the list of its
entries in strictly increasing key order, so that two maps are equal exactly
when their lists are.  `assign` is the assignment `m[key] = value`.
-/

namespace GoP2P.SortedAssoc

variable {κ ν μ : Type} [LinearOrder κ]

def assign (key : κ) (value : ν) : List (κ × ν) → List (κ × ν)
  | [] => [(key, value)]
  | entry :: rest =>
      if key < entry.1 then (key, value) :: entry :: rest
      else if entry.1 < key then entry :: assign key value rest
      else (key, value) :: rest

def assignAll (map entries : List (κ × ν)) : List (κ × ν) :=
  entries.foldl (fun map entry => assign entry.1 entry.2 map) map

def Sorted (map : List (κ × ν)) : Prop :=
  map.Pairwise fun left right => left.1 < right.1

@[simp] theorem assignAll_nil (map : List (κ × ν)) : assignAll map [] = map := rfl

@[simp] theorem assignAll_cons
    (map : List (κ × ν)) (entry : κ × ν) (entries : List (κ × ν)) :
    assignAll map (entry :: entries) =
      assignAll (assign entry.1 entry.2 map) entries := rfl

theorem mem_assign {key : κ} {value : ν} {map : List (κ × ν)} {entry : κ × ν}
    (hentry : entry ∈ assign key value map) :
    entry = (key, value) ∨ entry ∈ map := by
  induction map with
  | nil => simpa [assign] using hentry
  | cons first rest ih =>
      rw [assign] at hentry
      split_ifs at hentry
      · simpa using hentry
      · rcases List.mem_cons.mp hentry with rfl | hlater
        · simp
        · rcases ih hlater with hnew | hold
          · exact .inl hnew
          · exact .inr (by simp [hold])
      · rcases List.mem_cons.mp hentry with hnew | hold
        · exact .inl hnew
        · exact .inr (by simp [hold])

theorem mem_assignAll {map entries : List (κ × ν)} {entry : κ × ν}
    (hentry : entry ∈ assignAll map entries) :
    entry ∈ map ∨ entry ∈ entries := by
  induction entries generalizing map with
  | nil => exact .inl hentry
  | cons first entries ih =>
      rcases ih hentry with hmap | hlater
      · rcases mem_assign hmap with rfl | hold
        · exact .inr (by simp)
        · exact .inl hold
      · exact .inr (by simp [hlater])

theorem sorted_assign (key : κ) (value : ν) {map : List (κ × ν)}
    (hsorted : Sorted map) : Sorted (assign key value map) := by
  induction map with
  | nil => simp [assign, Sorted]
  | cons first rest ih =>
      obtain ⟨hfirst, hrest⟩ := List.pairwise_cons.mp hsorted
      rw [assign]
      split_ifs with hbefore hafter
      · refine List.pairwise_cons.mpr ⟨?_, hsorted⟩
        intro entry hentry
        rcases List.mem_cons.mp hentry with rfl | hlater
        · exact hbefore
        · exact hbefore.trans (hfirst entry hlater)
      · refine List.pairwise_cons.mpr ⟨?_, ih hrest⟩
        intro entry hentry
        rcases mem_assign hentry with rfl | hold
        · exact hafter
        · exact hfirst entry hold
      · have hsame : key = first.1 :=
          le_antisymm (not_lt.mp hafter) (not_lt.mp hbefore)
        exact List.pairwise_cons.mpr ⟨by simpa [hsame] using hfirst, hrest⟩

theorem sorted_assignAll {map : List (κ × ν)} (entries : List (κ × ν))
    (hsorted : Sorted map) : Sorted (assignAll map entries) := by
  induction entries generalizing map with
  | nil => exact hsorted
  | cons first entries ih => exact ih (sorted_assign _ _ hsorted)

theorem assign_of_forall_lt {key : κ} (value : ν) {map : List (κ × ν)}
    (habove : ∀ entry ∈ map, entry.1 < key) :
    assign key value map = map ++ [(key, value)] := by
  induction map with
  | nil => rfl
  | cons first rest ih =>
      have hfirst := habove first (by simp)
      rw [assign, if_neg hfirst.not_gt, if_pos hfirst,
        ih fun entry hentry => habove entry (by simp [hentry])]
      rfl

theorem assignAll_of_sorted {map entries : List (κ × ν)}
    (hsorted : Sorted (map ++ entries)) :
    assignAll map entries = map ++ entries := by
  induction entries generalizing map with
  | nil => simp
  | cons first entries ih =>
      have habove : ∀ entry ∈ map, entry.1 < first.1 := by
        intro entry hentry
        exact (List.pairwise_append.mp hsorted).2.2 entry hentry first (by simp)
      rw [assignAll_cons, assign_of_forall_lt _ habove, ih]
      · simp
      · simpa using hsorted

theorem perm_assign {key : κ} (value : ν) {map : List (κ × ν)}
    (hnew : ∀ entry ∈ map, entry.1 ≠ key) :
    (assign key value map).Perm ((key, value) :: map) := by
  induction map with
  | nil => exact .refl _
  | cons first rest ih =>
      obtain ⟨hfirst, hrest⟩ := List.forall_mem_cons.mp hnew
      rw [assign]
      split_ifs with hbefore hafter
      · exact .refl _
      · exact ((ih hrest).cons first).trans (.swap _ _ _)
      · exact absurd (le_antisymm (not_lt.mp hbefore) (not_lt.mp hafter)) hfirst

/-- Assignments to different keys only bring the entries into order. -/
theorem perm_assignAll {map entries : List (κ × ν)}
    (hkeys : ((entries ++ map).map Prod.fst).Nodup) :
    (assignAll map entries).Perm (entries ++ map) := by
  induction entries generalizing map with
  | nil => exact .refl _
  | cons first entries ih =>
      rw [List.cons_append, List.map_cons, List.nodup_cons] at hkeys
      have hnew : ∀ entry ∈ map, entry.1 ≠ first.1 := by
        intro entry hentry hsame
        refine hkeys.1 (List.mem_map.mpr ⟨entry, ?_, hsame⟩)
        exact List.mem_append_right entries hentry
      have hfirst := perm_assign first.2 hnew
      have hmiddle : (entries ++ assign first.1 first.2 map).Perm
          (first :: (entries ++ map)) :=
        (hfirst.append_left entries).trans List.perm_middle
      refine (ih ?_).trans hmiddle
      rw [(hmiddle.map Prod.fst).nodup_iff, List.map_cons]
      exact List.nodup_cons.mpr hkeys

theorem perm_assignAll_nil {entries : List (κ × ν)}
    (hkeys : (entries.map Prod.fst).Nodup) :
    (assignAll [] entries).Perm entries := by
  have hperm : (assignAll [] entries).Perm (entries ++ []) :=
    perm_assignAll (by rwa [List.append_nil])
  rwa [List.append_nil] at hperm

/-! ## Payloads and weights -/

theorem map_assign (f : ν → μ) (key : κ) (value : ν) (map : List (κ × ν)) :
    (assign key value map).map (Prod.map id f) =
      assign key (f value) (map.map (Prod.map id f)) := by
  induction map with
  | nil => rfl
  | cons first rest ih =>
      simp only [assign, List.map_cons, Prod.map_fst, id_eq]
      split_ifs
      · rfl
      · rw [List.map_cons, ih]
      · rfl

theorem map_assignAll (f : ν → μ) (map entries : List (κ × ν)) :
    (assignAll map entries).map (Prod.map id f) =
      assignAll (map.map (Prod.map id f)) (entries.map (Prod.map id f)) := by
  induction entries generalizing map with
  | nil => rfl
  | cons first entries ih =>
      rw [assignAll_cons, ih, map_assign]
      rfl

/-- An assignment adds at most the weight of its entry, and what it overwrites
only makes the map lighter. -/
theorem weight_assign_le (weight : κ × ν → ℕ) (key : κ) (value : ν)
    (map : List (κ × ν)) :
    ((assign key value map).map weight).sum ≤
      weight (key, value) + (map.map weight).sum := by
  induction map with
  | nil => simp [assign]
  | cons first rest ih =>
      rw [assign]
      split_ifs
      · simp
      · simp only [List.map_cons, List.sum_cons]
        omega
      · simp only [List.map_cons, List.sum_cons]
        omega

theorem weight_assignAll_le (weight : κ × ν → ℕ) (map entries : List (κ × ν)) :
    ((assignAll map entries).map weight).sum ≤
      (map.map weight).sum + (entries.map weight).sum := by
  induction entries generalizing map with
  | nil => simp
  | cons first entries ih =>
      have hrest := ih (assign first.1 first.2 map)
      have hfirst := weight_assign_le weight first.1 first.2 map
      rw [Prod.mk.eta] at hfirst
      simp only [assignAll_cons, List.map_cons, List.sum_cons]
      omega

theorem length_assignAll_le (map entries : List (κ × ν)) :
    (assignAll map entries).length ≤ map.length + entries.length := by
  simpa using weight_assignAll_le (fun _ => 1) map entries

/-! ## Reading a map in key order -/

omit [LinearOrder κ] in
theorem lookup_of_mem_of_nodup [BEq κ] [LawfulBEq κ] {map : List (κ × ν)}
    (hnodup : (map.map Prod.fst).Nodup) {entry : κ × ν} (hentry : entry ∈ map) :
    map.lookup entry.1 = some entry.2 := by
  induction map with
  | nil => simp at hentry
  | cons first rest ih =>
      obtain ⟨hfirst, hrest⟩ := List.nodup_cons.mp hnodup
      obtain ⟨key, value⟩ := first
      rcases List.mem_cons.mp hentry with rfl | hlater
      · exact List.lookup_cons_self
      · have hne : entry.1 ≠ key := by
          intro hkey
          exact hfirst (List.mem_map.mpr ⟨entry, hlater, hkey⟩)
        rw [List.lookup_cons, beq_false_of_ne hne]
        exact ih hrest hlater

theorem lookup_of_mem [BEq κ] [LawfulBEq κ] {map : List (κ × ν)}
    (hsorted : Sorted map) {entry : κ × ν} (hentry : entry ∈ map) :
    map.lookup entry.1 = some entry.2 := by
  apply lookup_of_mem_of_nodup _ hentry
  apply List.Pairwise.map _ _ hsorted
  exact fun _ _ hlt => hlt.ne

theorem insertionSort_keys {map : List (κ × ν)} (hsorted : Sorted map) :
    (map.map Prod.fst).insertionSort (· ≤ ·) = map.map Prod.fst := by
  apply List.Pairwise.insertionSort_eq
  rw [List.pairwise_map]
  exact hsorted.imp fun hlt => hlt.le

/-- Sorting forgets the order in which the keys were listed. -/
theorem insertionSort_eq_of_perm {left right : List κ}
    (hperm : left.Perm right) :
    left.insertionSort (· ≤ ·) = right.insertionSort (· ≤ ·) := by
  apply List.Perm.eq_of_pairwise' (left.pairwise_insertionSort (· ≤ ·))
    (right.pairwise_insertionSort (· ≤ ·))
  exact (left.perm_insertionSort (· ≤ ·)).trans
    (hperm.trans (right.perm_insertionSort (· ≤ ·)).symm)

theorem pairwise_lt_insertionSort {keys : List κ} (hnodup : keys.Nodup) :
    (keys.insertionSort (· ≤ ·)).Pairwise (· < ·) := by
  have hdistinct : (keys.insertionSort (· ≤ ·)).Nodup :=
    (keys.perm_insertionSort (· ≤ ·)).nodup_iff.mpr hnodup
  have hordered := keys.pairwise_insertionSort (· ≤ ·)
  exact (hordered.and hdistinct).imp fun h => lt_of_le_of_ne h.1 h.2

end GoP2P.SortedAssoc
