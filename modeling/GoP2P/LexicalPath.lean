import GoP2P.Bytes

/-!
# Lexical paths

Slash-separated paths as `path/filepath` treats them on a Unix system: cleaned,
joined and made absolute by looking at the text alone.  The steps of a path are
its elements other than the empty one and `.`; a place is the list of names
that leads to it from the root.  Without symbolic links the place of an
absolute path is where the system finds it.
-/

namespace GoP2P.LexicalPath

def separator : UInt8 := 0x2f
def dot : Bytes := [0x2e]
def dotDot : Bytes := [0x2e, 0x2e]

def steps (path : Bytes) : List Bytes :=
  (path.splitOn separator).filter fun part => part ≠ [] ∧ part ≠ dot

/-- Going up from the root stays there. -/
def descend (place : List Bytes) (step : Bytes) : List Bytes :=
  if step = dotDot then place.dropLast else place ++ [step]

def resolve (place : List Bytes) (path : List Bytes) : List Bytes :=
  path.foldl descend place

/-- A `..` cancels the step before it, unless there is none or it is another
`..`. -/
def shortenStep (kept : List Bytes) (step : Bytes) : List Bytes :=
  if step = dotDot ∧ kept.getLast?.getD dotDot ≠ dotDot then kept.dropLast
  else kept ++ [step]

def shorten (path : List Bytes) : List Bytes := path.foldl shortenStep []

def isAbs (path : Bytes) : Bool := path.head? == some separator

def absoluteText (place : List Bytes) : Bytes :=
  separator :: [separator].intercalate place

def relativeText (path : List Bytes) : Bytes :=
  if path = [] then dot else [separator].intercalate path

def clean (path : Bytes) : Bytes :=
  if isAbs path then absoluteText (resolve [] (steps path))
  else relativeText (shorten (steps path))

def join (elements : List Bytes) : Bytes :=
  match elements.dropWhile (· = []) with
  | [] => []
  | first :: rest => clean ([separator].intercalate (first :: rest))

/-- `filepath.Abs` in the working directory `cwd` -/
def absolute (cwd path : Bytes) : Bytes :=
  if isAbs path then clean path else join [cwd, path]

def dir (path : Bytes) : Bytes :=
  clean (path.reverse.dropWhile (· ≠ separator)).reverse

def place (path : Bytes) : List Bytes := resolve [] (steps path)

def placeIn (cwd path : Bytes) : List Bytes :=
  if isAbs path then place path else resolve (place cwd) (steps path)

/-! ### Steps -/

def IsStep (part : Bytes) : Prop :=
  part ≠ [] ∧ part ≠ dot ∧ separator ∉ part

instance (part : Bytes) : Decidable (IsStep part) :=
  inferInstanceAs (Decidable (_ ∧ _ ∧ _))

def IsName (part : Bytes) : Prop := IsStep part ∧ part ≠ dotDot

instance (part : Bytes) : Decidable (IsName part) :=
  inferInstanceAs (Decidable (_ ∧ _))

theorem steps_append (front back : Bytes) :
    steps (front ++ separator :: back) = steps front ++ steps back := by
  simp [steps, List.splitOn_append_cons_self]

@[simp] theorem steps_nil : steps [] = [] := rfl

@[simp] theorem steps_separator_cons (path : Bytes) :
    steps (separator :: path) = steps path :=
  steps_append [] path

theorem separator_notMem_of_mem_splitOn {path part : Bytes}
    (hpart : part ∈ path.splitOn separator) : separator ∉ part := by
  induction path generalizing part with
  | nil =>
      simp at hpart
      simp [hpart]
  | cons byte rest ih =>
      rw [List.splitOn_cons_eq_if_modifyHead] at hpart
      split at hpart
      next =>
        rcases List.mem_cons.mp hpart with rfl | hrest
        · simp
        · exact ih hrest
      next hbyte =>
        cases hsplit : rest.splitOn separator with
        | nil => exact absurd hsplit (List.splitOn_ne_nil separator rest)
        | cons first others =>
            rw [hsplit, List.modifyHead_cons] at hpart
            rcases List.mem_cons.mp hpart with rfl | hothers
            · have hfirst : separator ∉ first := ih (by simp [hsplit])
              intro hmem
              rcases List.mem_cons.mp hmem with heq | hmem
              · exact hbyte (beq_iff_eq.mpr heq.symm)
              · exact hfirst hmem
            · exact ih (by simp [hsplit, hothers])

theorem isStep_of_mem_steps {path part : Bytes} (hpart : part ∈ steps path) :
    IsStep part := by
  rw [steps, List.mem_filter] at hpart
  simp only [ne_eq, decide_eq_true_eq] at hpart
  exact ⟨hpart.2.1, hpart.2.2, separator_notMem_of_mem_splitOn hpart.1⟩

theorem steps_intercalate {path : List Bytes}
    (hpath : ∀ part ∈ path, IsStep part) :
    steps ([separator].intercalate path) = path := by
  by_cases hnil : path = []
  · subst hnil
    rfl
  · rw [steps, List.splitOn_intercalate separator
      (fun part hpart => (hpath part hpart).2.2) hnil, List.filter_eq_self]
    intro part hpart
    simpa using ⟨(hpath part hpart).1, (hpath part hpart).2.1⟩

theorem steps_absoluteText {path : List Bytes}
    (hpath : ∀ part ∈ path, IsStep part) :
    steps (absoluteText path) = path := by
  rw [absoluteText, steps_separator_cons, steps_intercalate hpath]

theorem steps_relativeText {path : List Bytes}
    (hpath : ∀ part ∈ path, IsStep part) :
    steps (relativeText path) = path := by
  unfold relativeText
  split
  next hnil =>
    subst hnil
    rfl
  next => exact steps_intercalate hpath

/-! ### Resolving -/

theorem resolve_append (start front back : List Bytes) :
    resolve start (front ++ back) = resolve (resolve start front) back :=
  List.foldl_append

theorem isName_of_mem_resolve {start path : List Bytes}
    (hstart : ∀ part ∈ start, IsName part)
    (hpath : ∀ part ∈ path, IsStep part) :
    ∀ part ∈ resolve start path, IsName part := by
  induction path generalizing start with
  | nil => exact hstart
  | cons step rest ih =>
      apply ih
      · intro part hpart
        unfold descend at hpart
        split at hpart
        · exact hstart part (List.mem_of_mem_dropLast hpart)
        next hstep =>
          rcases List.mem_append.mp hpart with hold | hnew
          · exact hstart part hold
          · rw [List.mem_singleton] at hnew
            subst hnew
            exact ⟨hpath part List.mem_cons_self, hstep⟩
      · intro part hpart
        exact hpath part (List.mem_cons_of_mem step hpart)

theorem isName_of_mem_place {path part : Bytes} (hpart : part ∈ place path) :
    IsName part :=
  isName_of_mem_resolve (by simp) (fun _ => isStep_of_mem_steps) part hpart

theorem resolve_of_isName {start path : List Bytes}
    (hpath : ∀ part ∈ path, IsName part) :
    resolve start path = start ++ path := by
  induction path generalizing start with
  | nil => simp [resolve]
  | cons step rest ih =>
      have hstep : descend start step = start ++ [step] :=
        if_neg (hpath step List.mem_cons_self).2
      calc resolve start (step :: rest)
          = resolve (start ++ [step]) rest := by
            rw [← hstep]
            rfl
        _ = start ++ step :: rest := by
            rw [ih fun part hpart => hpath part (List.mem_cons_of_mem step hpart)]
            simp

theorem isStep_of_mem_shorten {path : List Bytes}
    (hpath : ∀ part ∈ path, IsStep part) :
    ∀ part ∈ shorten path, IsStep part := by
  suffices hfold : ∀ kept : List Bytes, (∀ part ∈ kept, IsStep part) →
      ∀ part ∈ path.foldl shortenStep kept, IsStep part from
    hfold [] (by simp)
  induction path with
  | nil => exact fun kept hkept => hkept
  | cons step rest ih =>
      intro kept hkept
      apply ih
      · intro part hpart
        exact hpath part (List.mem_cons_of_mem step hpart)
      · intro part hpart
        unfold shortenStep at hpart
        split at hpart
        · exact hkept part (List.mem_of_mem_dropLast hpart)
        · rcases List.mem_append.mp hpart with hold | hnew
          · exact hkept part hold
          · rw [List.mem_singleton] at hnew
            subst hnew
            exact hpath part List.mem_cons_self

theorem resolve_shortenStep (start kept : List Bytes) (step : Bytes) :
    resolve start (shortenStep kept step) =
      descend (resolve start kept) step := by
  unfold shortenStep
  split
  next h =>
    -- the last step kept is a name, and the `..` undoes it
    rcases h with ⟨rfl, hlast⟩
    rcases List.eq_nil_or_concat kept with rfl | ⟨front, last, rfl⟩
    · simp at hlast
    · have hname : last ≠ dotDot := by simpa using hlast
      simp [resolve, descend, hname]
  next =>
    simp [resolve]

/-- Shortening a path does not change where it leads, from wherever. -/
theorem resolve_shorten (start path : List Bytes) :
    resolve start (shorten path) = resolve start path := by
  suffices hfold : ∀ kept, resolve start (path.foldl shortenStep kept) =
      resolve (resolve start kept) path from
    hfold []
  induction path with
  | nil => exact fun kept => rfl
  | cons step rest ih =>
      intro kept
      rw [List.foldl_cons, ih, resolve_shortenStep]
      rfl

/-! ### Cleaning and joining -/

@[simp] theorem isAbs_absoluteText (path : List Bytes) :
    isAbs (absoluteText path) = true := rfl

theorem isAbs_relativeText {path : List Bytes}
    (hpath : ∀ part ∈ path, IsStep part) :
    isAbs (relativeText path) = false := by
  unfold relativeText
  split
  · rfl
  next hnil =>
    rcases List.exists_cons_of_ne_nil hnil with ⟨first, rest, rfl⟩
    rcases hpath first List.mem_cons_self with ⟨hne, -, hseparator⟩
    rcases List.exists_cons_of_ne_nil hne with ⟨byte, tail, rfl⟩
    have hbyte : byte ≠ separator := by
      intro h
      simp [h] at hseparator
    cases rest with
    | nil => simpa [isAbs] using hbyte
    | cons second others =>
        rw [List.intercalate_cons_cons]
        simpa [isAbs] using hbyte

theorem isAbs_of_isStep {name : Bytes} (hname : IsStep name) :
    isAbs name = false := by
  have hsingle : ∀ part ∈ [name], IsStep part := by simpa using hname
  simpa [relativeText] using isAbs_relativeText hsingle

theorem isAbs_append {path : Bytes} (rest : Bytes) (hne : path ≠ []) :
    isAbs (path ++ rest) = isAbs path := by
  rcases List.exists_cons_of_ne_nil hne with ⟨byte, tail, rfl⟩
  rfl

theorem isAbs_clean (path : Bytes) : isAbs (clean path) = isAbs path := by
  unfold clean
  split
  next habs => rw [habs, isAbs_absoluteText]
  next habs =>
    rw [isAbs_relativeText (isStep_of_mem_shorten fun _ => isStep_of_mem_steps)]
    exact (Bool.eq_false_iff.mpr habs).symm

theorem clean_of_isAbs {path : Bytes} (habs : isAbs path = true) :
    clean path = absoluteText (place path) :=
  if_pos habs

theorem place_absoluteText {path : List Bytes}
    (hpath : ∀ part ∈ path, IsName part) : place (absoluteText path) = path := by
  rw [place, steps_absoluteText fun part hpart => (hpath part hpart).1,
    resolve_of_isName hpath, List.nil_append]

theorem clean_absoluteText {path : List Bytes}
    (hpath : ∀ part ∈ path, IsName part) :
    clean (absoluteText path) = absoluteText path := by
  rw [clean_of_isAbs (isAbs_absoluteText path), place_absoluteText hpath]

theorem steps_of_isStep {name : Bytes} (hname : IsStep name) :
    steps name = [name] := by
  have hsingle : ∀ part ∈ [name], IsStep part := by simpa using hname
  simpa using steps_intercalate hsingle

theorem clean_of_isName {name : Bytes} (hname : IsName name) :
    clean name = name := by
  rcases hname with ⟨hstep, hdots⟩
  rw [clean, isAbs_of_isStep hstep, steps_of_isStep hstep]
  simp [shorten, shortenStep, hdots, relativeText]

theorem clean_ne_nil (path : Bytes) : clean path ≠ [] := by
  unfold clean relativeText
  split_ifs with habs hnil
  · simp [absoluteText]
  · simp [dot]
  · intro htext
    have hparts : ∀ part ∈ shorten (steps path), IsStep part :=
      isStep_of_mem_shorten fun _ => isStep_of_mem_steps
    have hsteps := steps_intercalate hparts
    rw [htext] at hsteps
    exact hnil hsteps.symm

theorem placeIn_clean (cwd path : Bytes) :
    placeIn cwd (clean path) = placeIn cwd path := by
  unfold placeIn
  rw [isAbs_clean]
  split
  next habs =>
    rw [clean_of_isAbs habs, place_absoluteText fun _ => isName_of_mem_place]
  next habs =>
    have hclean : clean path = relativeText (shorten (steps path)) :=
      if_neg habs
    rw [hclean, steps_relativeText
      (isStep_of_mem_shorten fun _ => isStep_of_mem_steps), resolve_shorten]

theorem join_pair {base : Bytes} (name : Bytes) (hbase : base ≠ []) :
    join [base, name] = clean (base ++ separator :: name) := by
  simp [join, hbase, List.intercalate_cons_cons]

theorem placeIn_join (cwd : Bytes) {base : Bytes} (name : Bytes)
    (hbase : base ≠ []) :
    placeIn cwd (join [base, name]) =
      resolve (placeIn cwd base) (steps name) := by
  rw [join_pair name hbase, placeIn_clean]
  unfold placeIn place
  rw [isAbs_append _ hbase, steps_append]
  split
  · rw [resolve_append]
  · rw [resolve_append]

theorem absolute_eq {cwd : Bytes} (hcwd : isAbs cwd = true) (path : Bytes) :
    absolute cwd path = absoluteText (placeIn cwd path) := by
  have hne : cwd ≠ [] := by
    rintro rfl
    cases hcwd
  unfold absolute placeIn
  split
  next habs => rw [clean_of_isAbs habs]
  next =>
    have hjoined : isAbs (cwd ++ separator :: path) = true := by
      rw [isAbs_append _ hne, hcwd]
    rw [join_pair path hne, clean_of_isAbs hjoined, place, steps_append,
      resolve_append]
    rfl

theorem isName_of_mem_placeIn {cwd path part : Bytes}
    (hpart : part ∈ placeIn cwd path) : IsName part := by
  unfold placeIn at hpart
  split at hpart
  · exact isName_of_mem_place hpart
  · exact isName_of_mem_resolve (fun _ => isName_of_mem_place)
      (fun _ => isStep_of_mem_steps) part hpart

/-! ### Comparing and shortening absolute texts -/

/-- The text of a place, followed by a separator, begins only the texts of
places below it. -/
theorem exists_eq_append_of_text_prefix {above path : List Bytes}
    (habove : ∀ part ∈ above, IsName part) (hpath : ∀ part ∈ path, IsName part)
    (htext : absoluteText above ++ [separator] <+: absoluteText path) :
    ∃ rest, path = above ++ rest := by
  rcases htext with ⟨rest, hrest⟩
  have hsteps := congrArg steps hrest
  rw [List.append_assoc, List.singleton_append, steps_append,
    steps_absoluteText fun part hpart => (habove part hpart).1,
    steps_absoluteText fun part hpart => (hpath part hpart).1] at hsteps
  exact ⟨steps rest, hsteps.symm⟩

theorem eq_nil_of_root_text_prefix {path : List Bytes}
    (hpath : ∀ part ∈ path, IsName part)
    (htext : absoluteText [] ++ [separator] <+: absoluteText path) :
    path = [] := by
  by_contra hne
  have hrelative := isAbs_relativeText fun part hpart => (hpath part hpart).1
  rw [relativeText, if_neg hne] at hrelative
  rcases htext with ⟨rest, hrest⟩
  have htail : [separator].intercalate path = separator :: rest := by
    simpa [absoluteText] using hrest.symm
  rw [htail] at hrelative
  cases hrelative

theorem absoluteText_concat {path : List Bytes} (hne : path ≠ [])
    (last : Bytes) :
    absoluteText (path ++ [last]) =
      absoluteText path ++ separator :: last := by
  unfold absoluteText
  rw [List.cons_append]
  congr 1
  induction path with
  | nil => exact absurd rfl hne
  | cons first rest ih =>
      cases rest with
      | nil => simp [List.intercalate_cons_cons]
      | cons second others =>
          rw [List.cons_append, List.cons_append, List.intercalate_cons_cons,
            ← List.cons_append, ih (by simp), List.intercalate_cons_cons]
          simp

theorem dir_append_separator {front last : Bytes} (hlast : separator ∉ last) :
    dir (front ++ separator :: last) = clean (front ++ [separator]) := by
  have hdrop : (front ++ separator :: last).reverse.dropWhile
      (· ≠ separator) = separator :: front.reverse := by
    rw [List.reverse_append, List.reverse_cons, List.append_assoc,
      List.dropWhile_append_of_pos]
    · simp
    · intro byte hbyte
      simp only [List.mem_reverse] at hbyte
      have hne : byte ≠ separator := fun h => hlast (h ▸ hbyte)
      simpa using hne
  rw [dir, hdrop, List.reverse_cons, List.reverse_reverse]

theorem dir_absoluteText {path : List Bytes}
    (hpath : ∀ part ∈ path, IsName part) :
    dir (absoluteText path) = absoluteText path.dropLast := by
  rcases List.eq_nil_or_concat path with rfl | ⟨front, last, rfl⟩
  · rfl
  · rw [List.concat_eq_append] at hpath ⊢
    have hlast : separator ∉ last := (hpath last (by simp)).1.2.2
    have hfront : ∀ part ∈ front, IsName part :=
      fun part hpart => hpath part (by simp [hpart])
    rw [List.dropLast_concat]
    by_cases hnil : front = []
    · subst hnil
      have htext : absoluteText ([] ++ [last]) = [] ++ separator :: last := by
        simp [absoluteText]
      rw [htext, dir_append_separator hlast]
      rfl
    · rw [absoluteText_concat hnil, dir_append_separator hlast]
      have habs : isAbs (absoluteText front ++ [separator]) = true := rfl
      rw [clean_of_isAbs habs, place, steps_append, steps_nil, List.append_nil]
      exact congrArg absoluteText (place_absoluteText hfront)

end GoP2P.LexicalPath
