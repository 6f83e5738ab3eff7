import Mathlib.Data.List.Infix
import Mathlib.Tactic

/-!
# Replacing words in a text

Every occurrence of a word, read from the left and without overlap, gives way
to another one.  Replacing the words of a table one after the other, each of
them led by the same escape sign and standing for one mark, is reading the
table's words wherever they stand in the text, also where the escape sign was
meant otherwise.
-/

namespace GoP2P

variable {α : Type*} [DecidableEq α]

def replaceFrom (old new : List α) : ℕ → List α → List α
  | _, [] => []
  | skip + 1, _ :: rest => replaceFrom old new skip rest
  | 0, c :: rest =>
      if old <+: c :: rest then
        new ++ replaceFrom old new (old.length - 1) rest
      else c :: replaceFrom old new 0 rest

/-- `strings.ReplaceAll` for a word that is not empty. -/
def replaceAll (old new content : List α) : List α :=
  replaceFrom old new 0 content

/-! ## One word -/

section Word

variable {lead : α} {word new : List α}

@[simp] theorem replaceAll_nil {old : List α} : replaceAll old new [] = [] :=
  rfl

theorem replaceFrom_append (old new skipped rest : List α) :
    replaceFrom old new skipped.length (skipped ++ rest) =
      replaceAll old new rest := by
  induction skipped with
  | nil => rfl
  | cons c skipped ih => exact ih

theorem replaceAll_append (rest : List α) :
    replaceAll (lead :: word) new (lead :: (word ++ rest)) =
      new ++ replaceAll (lead :: word) new rest := by
  have hfound : lead :: word <+: lead :: (word ++ rest) :=
    List.prefix_append (lead :: word) rest
  unfold replaceAll
  rw [replaceFrom, if_pos hfound, List.length_cons, Nat.add_sub_cancel,
    replaceFrom_append]
  rfl

theorem replaceAll_cons_of_missing {old : List α} {c : α} {rest : List α}
    (hmissing : ¬old <+: c :: rest) :
    replaceAll old new (c :: rest) = c :: replaceAll old new rest := by
  unfold replaceAll
  rw [replaceFrom, if_neg hmissing]

theorem replaceAll_cons_of_ne {c : α} (hne : c ≠ lead) (rest : List α) :
    replaceAll (lead :: word) new (c :: rest) =
      c :: replaceAll (lead :: word) new rest := by
  apply replaceAll_cons_of_missing
  rw [List.cons_prefix_cons]
  exact fun h => hne h.1.symm

theorem replaceAll_append_of_notMem {kept : List α} (hlead : lead ∉ kept)
    (rest : List α) :
    replaceAll (lead :: word) new (kept ++ rest) =
      kept ++ replaceAll (lead :: word) new rest := by
  induction kept with
  | nil => rfl
  | cons c kept ih =>
      rw [List.mem_cons, not_or] at hlead
      rw [List.cons_append, replaceAll_cons_of_ne (Ne.symm hlead.1),
        ih hlead.2, List.cons_append]

/-- The text read as `replaceAll` reads it. -/
theorem replaceAll_induction (lead : α) (word : List α)
    {motive : List α → Prop} (nil : motive [])
    (found : ∀ rest, motive rest → motive (lead :: (word ++ rest)))
    (kept : ∀ c rest, ¬lead :: word <+: c :: rest → motive rest →
      motive (c :: rest)) (content : List α) : motive content := by
  induction hlength : content.length using Nat.strong_induction_on
    generalizing content with
  | _ length ih =>
      cases content with
      | nil => exact nil
      | cons c rest =>
          by_cases hfound : lead :: word <+: c :: rest
          · rcases hfound with ⟨rest', hrest⟩
            rw [← hrest] at hlength ⊢
            refine found rest' (ih rest'.length ?_ rest' rfl)
            simp at hlength
            omega
          · refine kept c rest hfound (ih rest.length ?_ rest rfl)
            simp at hlength
            omega

omit [DecidableEq α] in
theorem prefix_of_prefix_append_cons {word kept rest : List α} {c : α}
    (hfound : word <+: kept ++ c :: rest) (hc : c ∉ word) : word <+: kept := by
  rcases List.prefix_or_prefix_of_prefix hfound
    (List.prefix_append kept (c :: rest)) with h | ⟨more, hmore⟩
  · exact h
  · subst hmore
    rw [List.prefix_append_right_inj] at hfound
    cases more with
    | nil => simp
    | cons d more =>
        rw [List.cons_prefix_cons] at hfound
        simp [hfound.1] at hc

/-- A sign that is not in the word splits the text. -/
theorem replaceAll_append_cons {c : α} (hc : c ∉ lead :: word)
    (content rest : List α) :
    replaceAll (lead :: word) new (content ++ c :: rest) =
      replaceAll (lead :: word) new content ++
        c :: replaceAll (lead :: word) new rest := by
  induction content using replaceAll_induction lead word with
  | nil =>
      exact replaceAll_cons_of_ne (List.ne_of_not_mem_cons hc) rest
  | found content ih =>
      rw [List.cons_append, List.append_assoc, replaceAll_append, ih,
        replaceAll_append, List.append_assoc]
  | kept d content hmissing ih =>
      have hmissing' : ¬lead :: word <+: d :: (content ++ c :: rest) :=
        fun h => hmissing (prefix_of_prefix_append_cons h hc)
      rw [List.cons_append, replaceAll_cons_of_missing hmissing', ih,
        replaceAll_cons_of_missing hmissing, List.cons_append]

/-- No word without the mark comes up at the front. -/
theorem prefix_of_prefix_replaceAll {mark : α} {other content : List α}
    (hmark : mark ∉ other)
    (hfound : other <+: replaceAll (lead :: word) [mark] content) :
    other <+: content := by
  induction other generalizing content with
  | nil => exact List.nil_prefix
  | cons c other ih =>
      rw [List.mem_cons, not_or] at hmark
      cases content with
      | nil => exact hfound
      | cons d content =>
          by_cases hword : lead :: word <+: d :: content
          · rcases hword with ⟨rest, hrest⟩
            rw [← hrest, List.cons_append, replaceAll_append,
              List.singleton_append, List.cons_prefix_cons] at hfound
            exact absurd hfound.1.symm hmark.1
          · rw [replaceAll_cons_of_missing hword,
              List.cons_prefix_cons] at hfound
            rw [List.cons_prefix_cons]
            exact ⟨hfound.1, ih hmark.2 hfound.2⟩

end Word

/-! ## A table of escapes -/

/-- Words of one length, none of which holds the escape sign or a mark, each
with the mark it stands for. -/
structure EscapeTable (lead : α) (table : List (List α × α)) : Prop where
  lengths : ∃ width, ∀ entry ∈ table, entry.1.length = width
  nodup : (table.map Prod.fst).Nodup
  lead_notMem : ∀ entry ∈ table, lead ∉ entry.1
  mark_notMem : ∀ entry ∈ table, ∀ other ∈ table, other.2 ∉ entry.1
  mark_ne : ∀ entry ∈ table, entry.2 ≠ lead

def unescapeAll (lead : α) (table : List (List α × α)) (content : List α) :
    List α :=
  table.foldl (fun content entry =>
    replaceAll (lead :: entry.1) [entry.2] content) content

section Table

variable {lead : α} {table : List (List α × α)}

@[simp] theorem unescapeAll_nil : unescapeAll lead table [] = [] := by
  unfold unescapeAll
  induction table with
  | nil => rfl
  | cons entry table ih => exact ih

theorem unescapeAll_cons_entry (entry : List α × α) (content : List α) :
    unescapeAll lead (entry :: table) content =
      unescapeAll lead table
        (replaceAll (lead :: entry.1) [entry.2] content) :=
  rfl

omit [DecidableEq α] in
theorem EscapeTable.tail {entry : List α × α}
    (htable : EscapeTable lead (entry :: table)) : EscapeTable lead table where
  lengths := by
    rcases htable.lengths with ⟨width, hwidth⟩
    exact ⟨width, fun other hother => hwidth other (by simp [hother])⟩
  nodup := (List.nodup_cons.mp htable.nodup).2
  lead_notMem other hother := htable.lead_notMem other (by simp [hother])
  mark_notMem entry hentry other hother :=
    htable.mark_notMem entry (by simp [hentry]) other (by simp [hother])
  mark_ne other hother := htable.mark_ne other (by simp [hother])

theorem unescapeAll_cons_of_ne {c : α} (hne : c ≠ lead) (rest : List α) :
    unescapeAll lead table (c :: rest) = c :: unescapeAll lead table rest := by
  induction table generalizing rest with
  | nil => rfl
  | cons entry table ih =>
      rw [unescapeAll_cons_entry, replaceAll_cons_of_ne hne, ih,
        unescapeAll_cons_entry]

theorem unescapeAll_append_of_notMem {kept : List α} (hlead : lead ∉ kept)
    (rest : List α) :
    unescapeAll lead table (kept ++ rest) =
      kept ++ unescapeAll lead table rest := by
  induction kept with
  | nil => rfl
  | cons c kept ih =>
      rw [List.mem_cons, not_or] at hlead
      rw [List.cons_append, unescapeAll_cons_of_ne (Ne.symm hlead.1),
        ih hlead.2, List.cons_append]

theorem unescapeAll_append_cons {c : α} (hc : c ≠ lead)
    (hwords : ∀ entry ∈ table, c ∉ entry.1) (content rest : List α) :
    unescapeAll lead table (content ++ c :: rest) =
      unescapeAll lead table content ++ c :: unescapeAll lead table rest := by
  induction table generalizing content rest with
  | nil => rfl
  | cons entry table ih =>
      have hentry : c ∉ lead :: entry.1 := by
        simp [hc, hwords entry]
      rw [unescapeAll_cons_entry, replaceAll_append_cons hentry,
        ih fun other hother => hwords other (by simp [hother])]
      rfl

/-- An escape sign that leads no word of the table stays. -/
theorem unescapeAll_lead_of_missing (htable : EscapeTable lead table)
    {rest : List α} (hmissing : ∀ entry ∈ table, ¬entry.1 <+: rest) :
    unescapeAll lead table (lead :: rest) =
      lead :: unescapeAll lead table rest := by
  induction table generalizing rest with
  | nil => rfl
  | cons entry table ih =>
      have hentry : ¬lead :: entry.1 <+: lead :: rest := by
        rw [List.cons_prefix_cons]
        exact fun h => hmissing entry (by simp) h.2
      rw [unescapeAll_cons_entry, replaceAll_cons_of_missing hentry,
        ih htable.tail, unescapeAll_cons_entry]
      intro other hother hfound
      refine hmissing other (by simp [hother]) ?_
      exact prefix_of_prefix_replaceAll
        (htable.mark_notMem other (by simp [hother]) entry (by simp)) hfound

omit [DecidableEq α] in
theorem EscapeTable.missing {entry other : List α × α}
    (htable : EscapeTable lead (other :: table)) (hentry : entry ∈ table)
    (rest : List α) : ¬other.1 <+: entry.1 ++ rest := by
  intro hfound
  rcases htable.lengths with ⟨width, hwidth⟩
  have hother := hwidth other (by simp)
  have hlength := hwidth entry (by simp [hentry])
  have heq : other.1 = entry.1 :=
    (List.prefix_of_prefix_length_le hfound (List.prefix_append _ _)
      (by omega)).eq_of_length (by omega)
  have hnotMem := (List.nodup_cons.mp htable.nodup).1
  rw [heq] at hnotMem
  exact hnotMem (List.mem_map_of_mem hentry)

/-- A word of the table behind the escape sign becomes its mark. -/
theorem unescapeAll_entry (htable : EscapeTable lead table)
    {entry : List α × α} (hentry : entry ∈ table) (rest : List α) :
    unescapeAll lead table (lead :: (entry.1 ++ rest)) =
      entry.2 :: unescapeAll lead table rest := by
  induction table generalizing rest with
  | nil => cases hentry
  | cons other table ih =>
      rcases List.mem_cons.mp hentry with rfl | hmem
      · rw [unescapeAll_cons_entry, replaceAll_append, List.singleton_append,
          unescapeAll_cons_of_ne (htable.mark_ne entry hentry),
          unescapeAll_cons_entry]
      · have hmissing : ¬lead :: other.1 <+: lead :: (entry.1 ++ rest) := by
          rw [List.cons_prefix_cons]
          exact fun h => htable.missing hmem rest h.2
        rw [unescapeAll_cons_entry, replaceAll_cons_of_missing hmissing,
          replaceAll_append_of_notMem (htable.lead_notMem entry hentry),
          ih htable.tail hmem, unescapeAll_cons_entry]

end Table

end GoP2P
