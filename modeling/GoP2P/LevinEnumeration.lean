import GoP2P.LevinEncodable

/-!
# The order of a map does not show in its encoding

Ranging over a Go map yields its fields in any order.  Here a section is such an
enumeration, and `Reenumerated` relates two values that enumerate the same maps,
at every level and each in an order of its own.  The encoder sorts the names of
every section before it writes or reports anything, so it cannot tell the two
apart.
-/

namespace GoP2P.Levin

open SortedAssoc

/-! ## Enumerations of one map -/

/-- A field of a map as it occurs in two enumerations. -/
structure FieldPair where
  name : Bytes
  left : Value
  right : Value

namespace FieldPair

def leftField (pair : FieldPair) : Bytes × Value := (pair.name, pair.left)

def rightField (pair : FieldPair) : Bytes × Value := (pair.name, pair.right)

end FieldPair

/-- Two enumerations of one map, whose values are related by `R`.  No name
occurs twice. -/
def Enumerated (R : Value → Value → Prop) (s t : Section) : Prop :=
  ∃ pairs : List FieldPair, s = pairs.map FieldPair.leftField ∧
    t.Perm (pairs.map FieldPair.rightField) ∧
    (pairs.map FieldPair.name).Nodup ∧
    ∀ pair ∈ pairs, R pair.left pair.right

def Value.sections (v : Value) : List Section := v.objectVal :: v.objectArray

/-- The two values differ at most in the sections inside them. -/
def Value.SameScalars (v w : Value) : Prop :=
  { w with
    objectVal := v.objectVal
    objectArray := v.objectArray } = v

theorem Value.sameScalars_refl (v : Value) : v.SameScalars v := by
  cases v
  rfl

theorem sameScalars_objectVal (s t : Section) :
    (objectVal s).SameScalars (objectVal t) := by
  unfold Value.SameScalars
  rfl

inductive Reenumerated : Value → Value → Prop where
  | intro {v w : Value} (sections : List (List FieldPair))
      (hscalars : v.SameScalars w)
      (hleft : v.sections = sections.map (List.map FieldPair.leftField))
      (hright : List.Forall₂ List.Perm w.sections
        (sections.map (List.map FieldPair.rightField)))
      (hnames : ∀ pairs ∈ sections, (pairs.map FieldPair.name).Nodup)
      (hvalues : ∀ pairs ∈ sections, ∀ pair ∈ pairs,
        Reenumerated pair.left pair.right) :
      Reenumerated v w

/-- Two enumerations of one section, down to the innermost maps. -/
def SameSection (s t : Section) : Prop := Enumerated Reenumerated s t

theorem forall₂_enumerated {R : Value → Value → Prop}
    {sections : List (List FieldPair)} {right : List Section}
    (hright : List.Forall₂ List.Perm right
      (sections.map (List.map FieldPair.rightField)))
    (hnames : ∀ pairs ∈ sections, (pairs.map FieldPair.name).Nodup)
    (hvalues : ∀ pairs ∈ sections, ∀ pair ∈ pairs, R pair.left pair.right) :
    List.Forall₂ (Enumerated R)
      (sections.map (List.map FieldPair.leftField)) right := by
  induction sections generalizing right with
  | nil =>
      cases hright
      exact .nil
  | cons pairs sections ih =>
      cases hright with
      | cons hperm hrest =>
          refine .cons ⟨pairs, rfl, hperm, hnames pairs (by simp),
            hvalues pairs (by simp)⟩ (ih hrest ?_ ?_)
          · intro other hother
            exact hnames other (by simp [hother])
          · intro other hother
            exact hvalues other (by simp [hother])

/-- What holds of two values as soon as it holds of the values in their
sections holds of all re-enumerations. -/
theorem Reenumerated.induct {P : Value → Value → Prop}
    (hstep : ∀ v w : Value, v.SameScalars w →
      List.Forall₂ (Enumerated P) v.sections w.sections → P v w)
    {v w : Value} (hsame : Reenumerated v w) : P v w := by
  induction hsame with
  | intro sections hscalars hleft hright hnames _ ih =>
      apply hstep _ _ hscalars
      rw [hleft]
      exact forall₂_enumerated hright hnames ih

theorem Enumerated.mono {P Q : Value → Value → Prop}
    (hmono : ∀ v w, P v w → Q v w) {s t : Section}
    (henum : Enumerated P s t) : Enumerated Q s t := by
  rcases henum with ⟨pairs, hleft, hright, hnames, hvalues⟩
  exact ⟨pairs, hleft, hright, hnames, fun pair hpair =>
    hmono _ _ (hvalues pair hpair)⟩

/-! ### What two enumerations share -/

theorem map_fst_leftField (pairs : List FieldPair) :
    (pairs.map FieldPair.leftField).map Prod.fst =
      pairs.map FieldPair.name := by
  rw [List.map_map]
  rfl

theorem map_fst_rightField (pairs : List FieldPair) :
    (pairs.map FieldPair.rightField).map Prod.fst =
      pairs.map FieldPair.name := by
  rw [List.map_map]
  rfl

section

variable {R : Value → Value → Prop} {s t : Section}

theorem Enumerated.nodup_left (henum : Enumerated R s t) :
    (s.map Prod.fst).Nodup := by
  rcases henum with ⟨pairs, rfl, -, hnames, -⟩
  rw [map_fst_leftField]
  exact hnames

theorem Enumerated.names_perm (henum : Enumerated R s t) :
    (s.map Prod.fst).Perm (t.map Prod.fst) := by
  rcases henum with ⟨pairs, rfl, hperm, -, -⟩
  rw [map_fst_leftField, ← map_fst_rightField]
  exact (hperm.map Prod.fst).symm

theorem Enumerated.lookup (henum : Enumerated R s t) {name : Bytes}
    (hname : name ∈ s.map Prod.fst) :
    ∃ v w, s.lookup name = some v ∧ t.lookup name = some w ∧ R v w := by
  have hleft := henum.nodup_left
  have hright := henum.names_perm.nodup_iff.mp hleft
  rcases henum with ⟨pairs, rfl, hperm, -, hvalues⟩
  rw [map_fst_leftField] at hname
  obtain ⟨pair, hpair, rfl⟩ := List.mem_map.mp hname
  refine ⟨pair.left, pair.right, ?_, ?_, hvalues pair hpair⟩
  · exact lookup_of_mem_of_nodup hleft
      (List.mem_map_of_mem (f := FieldPair.leftField) hpair)
  · exact lookup_of_mem_of_nodup hright (hperm.mem_iff.mpr
      (List.mem_map_of_mem (f := FieldPair.rightField) hpair))

end

/-! ## The same depth -/

theorem sectionDepth_le_iff {s : Section} {n : ℕ} :
    sectionDepth s ≤ n ↔ ∀ field ∈ s, field.2.depth ≤ n := by
  induction s with
  | nil => simp [sectionDepth]
  | cons first fields ih =>
      obtain ⟨name, value⟩ := first
      rw [sectionDepth, max_le_iff, ih, List.forall_mem_cons]

theorem Value.depth_eq (v : Value) :
    v.depth = sectionsDepth v.sections + 1 := by
  obtain ⟨type, intVal, uintVal, floatVal, boolVal, bytesVal, object,
    uint64Array, uint32Array, stringArray, objects⟩ := v
  rw [Value.depth, Value.sections, sectionsDepth]

theorem Enumerated.sectionDepth_eq {s t : Section}
    (henum : Enumerated (fun v w => v.depth = w.depth) s t) :
    sectionDepth s = sectionDepth t := by
  rcases henum with ⟨pairs, rfl, hperm, -, hvalues⟩
  apply eq_of_forall_ge_iff
  intro n
  rw [sectionDepth_le_iff, sectionDepth_le_iff]
  constructor
  · intro hleft field hfield
    obtain ⟨pair, hpair, rfl⟩ := List.mem_map.mp (hperm.mem_iff.mp hfield)
    have hle := hleft _ (List.mem_map_of_mem hpair)
    exact (hvalues pair hpair).symm.trans_le hle
  · intro hright field hfield
    obtain ⟨pair, hpair, rfl⟩ := List.mem_map.mp hfield
    have hle := hright _ (hperm.mem_iff.mpr (List.mem_map_of_mem hpair))
    exact (hvalues pair hpair).trans_le hle

theorem Reenumerated.depth_eq {v w : Value} (hsame : Reenumerated v w) :
    v.depth = w.depth := by
  refine hsame.induct (P := fun v w => v.depth = w.depth) ?_
  intro v w _ hsections
  rw [v.depth_eq, w.depth_eq]
  congr 1
  generalize v.sections = left at hsections
  generalize w.sections = right at hsections
  induction hsections with
  | nil => rfl
  | cons henum _ ih =>
      rw [sectionsDepth, sectionsDepth, henum.sectionDepth_eq, ih]

/-! ## The same bytes or the same error -/

/-- The encoder does the same with both values, whatever the nesting it is
ready for. -/
def SameEncoding (v w : Value) : Prop :=
  v.type = w.type ∧ ∀ depth buf,
    encodeValue (encodeSectionTo depth) buf v =
      encodeValue (encodeSectionTo depth) buf w

theorem encodeEntries_congr
    {encValue : Bytes → Value → Outcome CoreError Bytes} {s t : Section}
    {keys : List Bytes}
    (hvalues : ∀ name ∈ keys, ∃ v w, s.lookup name = some v ∧
      t.lookup name = some w ∧ v.type = w.type ∧
        ∀ buf, encValue buf v = encValue buf w) (buf : Bytes) :
    encodeEntries encValue s keys buf = encodeEntries encValue t keys buf := by
  induction keys generalizing buf with
  | nil => rfl
  | cons name keys ih =>
      obtain ⟨v, w, hv, hw, htype, hsame⟩ := hvalues name (by simp)
      have hrest : encodeEntries encValue s keys =
          encodeEntries encValue t keys :=
        funext fun buf => ih (fun other hother =>
          hvalues other (by simp [hother])) buf
      rw [encodeEntries, encodeEntries, hv, hw, hrest]
      simp only [Option.getD_some, htype, hsame]

theorem Enumerated.encodeSectionTo_eq {s t : Section}
    (henum : Enumerated SameEncoding s t) (depth : ℕ) (buf : Bytes) :
    encodeSectionTo depth buf s = encodeSectionTo depth buf t := by
  cases depth with
  | zero => rfl
  | succ depth =>
      rw [encodeSectionTo, encodeSectionTo]
      unfold encodeSectionWith
      rw [insertionSort_eq_of_perm henum.names_perm]
      apply encodeEntries_congr
      intro name hname
      rw [List.mem_insertionSort, ← henum.names_perm.mem_iff] at hname
      obtain ⟨v, w, hv, hw, htype, hsame⟩ := henum.lookup hname
      exact ⟨v, w, hv, hw, htype, hsame depth⟩

theorem encodeSections_congr
    {enc : Bytes → Section → Outcome CoreError Bytes} {left right : List Section}
    (hsame : List.Forall₂ (fun s t => ∀ buf, enc buf s = enc buf t) left right)
    (buf : Bytes) :
    encodeSections enc left buf = encodeSections enc right buf := by
  induction hsame generalizing buf with
  | nil => rfl
  | cons hfirst _ ih =>
      rw [encodeSections, encodeSections, hfirst]
      exact congrArg _ (funext ih)

theorem encodeValue_congr {enc : Bytes → Section → Outcome CoreError Bytes}
    {v w : Value} (hscalars : v.SameScalars w)
    (hsame : List.Forall₂ (fun s t => ∀ buf, enc buf s = enc buf t)
      v.sections w.sections) (buf : Bytes) :
    encodeValue enc buf v = encodeValue enc buf w := by
  cases hsame with
  | cons hobject hobjects =>
      have hlength := hobjects.length_eq
      have harray := encodeSections_congr hobjects
      rw [← hscalars]
      unfold encodeValue encodeArray
      dsimp only
      rw [hobject, harray, hlength]

theorem Reenumerated.sameEncoding {v w : Value} (hsame : Reenumerated v w) :
    SameEncoding v w := by
  refine hsame.induct ?_
  intro v w hscalars hsections
  constructor
  · rw [← hscalars]
  · intro depth buf
    apply encodeValue_congr hscalars
    exact hsections.imp fun s t henum => henum.encodeSectionTo_eq depth

theorem SameSection.encodeStorage_eq {s t : Section}
    (hsame : SameSection s t) : encodeStorage s = encodeStorage t := by
  have hdepth : sectionDepth s = sectionDepth t :=
    (hsame.mono fun _ _ => Reenumerated.depth_eq).sectionDepth_eq
  unfold encodeStorage encodeSection
  rw [hdepth]
  exact (hsame.mono fun _ _ => Reenumerated.sameEncoding).encodeSectionTo_eq _ _

/-! ## The order of the entries -/

/-- A field as the encoder writes it, with the bytes of its value. -/
structure LaidField where
  name : Bytes
  value : Value
  body : Bytes

def LaidField.text (field : LaidField) : Bytes :=
  UInt8.ofNat field.name.length ::
    (field.name ++ field.value.type :: field.body)

/-- How an encoded value is laid out: the entries of every section inside it
are the fields of the map, with strictly increasing names. -/
inductive Laid : Value → Bytes → Prop where
  | scalar {v : Value} {body : Bytes} (hsub : v.subsections = [])
      (hencoded : encodeValue encodeSection [] v = .returned body) : Laid v body
  | object {v : Value} (fields : List LaidField) (htype : v.type = typeObject)
      (hfields : ∀ name value, v.objectVal.lookup name = some value ↔
        ∃ field ∈ fields, field.name = name ∧ field.value = value)
      (hsorted : fields.Pairwise fun first second => first.name < second.name)
      (hlaid : ∀ field ∈ fields, Laid field.value field.body) :
      Laid v (packVarint (UInt64.ofNat fields.length) ++
        fields.flatMap LaidField.text)
  | objects {v : Value} (items : List (Section × Bytes))
      (htype : v.type = arrayFlag ||| typeObject)
      (hitems : v.objectArray = items.map Prod.fst)
      (hlaid : ∀ item ∈ items, Laid (objectVal item.1) item.2) :
      Laid v (packVarint (UInt64.ofNat items.length) ++ items.flatMap Prod.snd)

/-- What the call returns is the buffer with a layout of the value behind it. -/
def Appends (result : Outcome CoreError Bytes) (buf : Bytes) (v : Value) :
    Prop :=
  ∀ out, result = .returned out → ∃ body, out = buf ++ body ∧ Laid v body

/-- A value without sections is written the same behind any buffer. -/
theorem encodeValue_eq_append {v : Value} {kind : Kind}
    (htype : kind.tag = v.type) (hsub : v.subsections = []) :
    ∃ body, ∀ (enc : Bytes → Section → Outcome CoreError Bytes) (buf : Bytes),
      encodeValue enc buf v = .returned (buf ++ body) := by
  cases kind with
  | fixed kind => exact ⟨_, fun _ buf => encodeValue_of_fixed htype.symm buf⟩
  | object =>
      rw [subsections_of_object htype.symm] at hsub
      cases hsub
  | objectArray =>
      rw [subsections_of_objectArray htype.symm] at hsub
      refine ⟨packVarint 0, fun enc buf => ?_⟩
      unfold encodeValue encodeArray
      rw [← htype, hsub]
      rfl
  | bool =>
      refine ⟨[if v.boolVal then 1 else 0], fun enc buf => ?_⟩
      unfold encodeValue
      rw [← htype]
      cases v.boolVal <;> rfl
  | string =>
      refine ⟨packVarint (UInt64.ofNat v.bytesVal.length) ++ v.bytesVal,
        fun enc buf => ?_⟩
      rw [← List.append_assoc]
      unfold encodeValue
      rw [← htype]
      rfl
  | uint64Array =>
      refine ⟨packVarint (UInt64.ofNat v.uint64Array.length) ++
        v.uint64Array.flatMap fun n => leBytes 8 n.toNat, fun enc buf => ?_⟩
      rw [← List.append_assoc, ← foldl_append_eq]
      unfold encodeValue encodeArray
      rw [← htype]
      rfl
  | uint32Array =>
      refine ⟨packVarint (UInt64.ofNat v.uint32Array.length) ++
        v.uint32Array.flatMap fun n => leBytes 4 n.toNat, fun enc buf => ?_⟩
      rw [← List.append_assoc, ← foldl_append_eq]
      unfold encodeValue encodeArray
      rw [← htype]
      rfl
  | stringArray =>
      refine ⟨packVarint (UInt64.ofNat v.stringArray.length) ++
        v.stringArray.flatMap fun s =>
          packVarint (UInt64.ofNat s.length) ++ s, fun enc buf => ?_⟩
      rw [← List.append_assoc, ← foldl_append_eq]
      simp only [← List.append_assoc]
      unfold encodeValue encodeArray
      rw [← htype]
      rfl

theorem encodeValue_scalar {enc : Bytes → Section → Outcome CoreError Bytes}
    {v : Value} (hsub : v.subsections = []) (buf : Bytes) :
    Appends (encodeValue enc buf v) buf v := by
  intro out hencoded
  have hknown : ∃ kind : Kind, kind.tag = v.type := by
    by_contra hunknown
    push Not at hunknown
    exact encodeValue_unknown hunknown buf ⟨out, hencoded⟩
  obtain ⟨kind, htype⟩ := hknown
  obtain ⟨body, hbody⟩ := encodeValue_eq_append htype hsub
  rw [hbody] at hencoded
  cases hencoded
  exact ⟨body, rfl, .scalar hsub (hbody encodeSection [])⟩

theorem encodeEntries_laid
    {encValue : Bytes → Value → Outcome CoreError Bytes} {s : Section}
    {keys : List Bytes}
    (hvalues : ∀ name ∈ keys, ∃ v, s.lookup name = some v ∧
      ∀ buf, Appends (encValue buf v) buf v) {buf out : Bytes}
    (hencoded : encodeEntries encValue s keys buf = .returned out) :
    ∃ fields : List LaidField, out = buf ++ fields.flatMap LaidField.text ∧
      fields.map LaidField.name = keys ∧
      ∀ field ∈ fields, s.lookup field.name = some field.value ∧
        Laid field.value field.body := by
  induction keys generalizing buf with
  | nil =>
      cases hencoded
      exact ⟨[], by simp⟩
  | cons name keys ih =>
      obtain ⟨v, hv, happends⟩ := hvalues name (by simp)
      rw [encodeEntries, hv, Option.getD_some] at hencoded
      dsimp only at hencoded
      split_ifs at hencoded with hlong
      obtain ⟨middle, hvalue, hrest⟩ :=
        Outcome.bind_eq_returned_iff.mp hencoded
      obtain ⟨body, rfl, hlaid⟩ := happends _ middle hvalue
      obtain ⟨fields, rfl, hnames, hfields⟩ :=
        ih (fun other hother => hvalues other (by simp [hother])) hrest
      refine ⟨⟨name, v, body⟩ :: fields, ?_, ?_, ?_⟩
      · simp [LaidField.text]
      · simp [hnames]
      · intro field hfield
        rcases List.mem_cons.mp hfield with rfl | hlater
        · exact ⟨hv, hlaid⟩
        · exact hfields field hlater

theorem encodeSectionTo_laid {s : Section}
    (hnames : (s.map Prod.fst).Nodup) {depth : ℕ}
    (hvalues : ∀ name v, s.lookup name = some v → ∀ depth buf,
      Appends (encodeValue (encodeSectionTo depth) buf v) buf v) (buf : Bytes) :
    Appends (encodeSectionTo depth buf s) buf (objectVal s) := by
  intro out hencoded
  cases depth with
  | zero => cases hencoded
  | succ depth =>
      rw [encodeSectionTo] at hencoded
      unfold encodeSectionWith at hencoded
      dsimp only at hencoded
      have hkeys : ∀ name ∈ (s.map Prod.fst).insertionSort (· ≤ ·),
          ∃ v, s.lookup name = some v ∧ ∀ buf,
            Appends (encodeValue (encodeSectionTo depth) buf v) buf v := by
        intro name hname
        rw [List.mem_insertionSort] at hname
        obtain ⟨v, hv⟩ := exists_lookup_of_mem_keys hname
        exact ⟨v, hv, hvalues name v hv depth⟩
      obtain ⟨fields, rfl, hfields, hlaid⟩ := encodeEntries_laid hkeys hencoded
      have hlength : fields.length =
          ((s.map Prod.fst).insertionSort (· ≤ ·)).length := by
        rw [← hfields, List.length_map]
      refine ⟨packVarint (UInt64.ofNat fields.length) ++
        fields.flatMap LaidField.text, ?_, ?_⟩
      · rw [hlength, List.append_assoc]
      · refine .object fields rfl ?_ ?_ fun field hfield =>
          (hlaid field hfield).2
        · intro name value
          constructor
          · intro hlookup
            have hname : name ∈ fields.map LaidField.name := by
              rw [hfields, List.mem_insertionSort]
              exact List.mem_map_of_mem (f := Prod.fst) (mem_of_lookup hlookup)
            obtain ⟨field, hfield, rfl⟩ := List.mem_map.mp hname
            have hvalue := (hlaid field hfield).1.symm.trans hlookup
            exact ⟨field, hfield, rfl, Option.some.inj hvalue⟩
          · rintro ⟨field, hfield, rfl, rfl⟩
            exact (hlaid field hfield).1
        · rw [← List.pairwise_map, hfields]
          exact pairwise_lt_insertionSort hnames

theorem encodeSections_laid
    {enc : Bytes → Section → Outcome CoreError Bytes} {sections : List Section}
    (hsections : ∀ s ∈ sections, ∀ buf, Appends (enc buf s) buf (objectVal s))
    {buf out : Bytes}
    (hencoded : encodeSections enc sections buf = .returned out) :
    ∃ items : List (Section × Bytes), sections = items.map Prod.fst ∧
      out = buf ++ items.flatMap Prod.snd ∧
      ∀ item ∈ items, Laid (objectVal item.1) item.2 := by
  induction sections generalizing buf with
  | nil =>
      cases hencoded
      exact ⟨[], by simp⟩
  | cons s sections ih =>
      rw [encodeSections] at hencoded
      obtain ⟨middle, hfirst, hrest⟩ :=
        Outcome.bind_eq_returned_iff.mp hencoded
      obtain ⟨body, rfl, hlaid⟩ := hsections s (by simp) _ middle hfirst
      obtain ⟨items, rfl, rfl, hitems⟩ :=
        ih (fun other hother => hsections other (by simp [hother])) hrest
      refine ⟨(s, body) :: items, by simp, by simp, ?_⟩
      intro item hitem
      rcases List.mem_cons.mp hitem with rfl | hlater
      · exact hlaid
      · exact hitems item hlater

/-- Every layout that comes with a value of one type fits any other value of
that type with the same object. -/
theorem Laid.of_objectVal {v : Value} {body : Bytes}
    (htype : v.type = typeObject) (hlaid : Laid (objectVal v.objectVal) body) :
    Laid v body := by
  cases hlaid with
  | scalar hsub => cases hsub
  | object fields _ hfields hsorted hlaid =>
      exact .object fields htype hfields hsorted hlaid
  | objects items htag =>
      have hne : typeObject ≠ arrayFlag ||| typeObject := by decide
      exact absurd htag hne

/-- The layout of a value from the layouts of the sections inside it. -/
theorem encodeValue_laid {enc : Bytes → Section → Outcome CoreError Bytes}
    {v : Value} (hsections : ∀ s ∈ v.sections, ∀ buf,
      Appends (enc buf s) buf (objectVal s)) (buf : Bytes) :
    Appends (encodeValue enc buf v) buf v := by
  by_cases hobject : v.type = typeObject
  · have hencode : encodeValue enc buf v = enc buf v.objectVal := by
      unfold encodeValue
      rw [hobject]
      rfl
    rw [hencode]
    intro out hencoded
    obtain ⟨body, rfl, hlaid⟩ :=
      hsections v.objectVal List.mem_cons_self buf out hencoded
    exact ⟨body, rfl, hlaid.of_objectVal hobject⟩
  by_cases hobjects : v.type = arrayFlag ||| typeObject
  · have hencode : encodeValue enc buf v = encodeSections enc v.objectArray
        (buf ++ packVarint (UInt64.ofNat v.objectArray.length)) := by
      unfold encodeValue encodeArray
      rw [hobjects]
      rfl
    rw [hencode]
    intro out hencoded
    obtain ⟨items, hitems, rfl, hlaid⟩ := encodeSections_laid
      (fun s hs => hsections s (List.mem_cons_of_mem _ hs)) hencoded
    refine ⟨packVarint (UInt64.ofNat items.length) ++ items.flatMap Prod.snd,
      ?_, .objects items hobjects hitems hlaid⟩
    rw [hitems, List.length_map, List.append_assoc]
  · apply encodeValue_scalar
    unfold Value.subsections
    rw [if_neg hobject, if_neg hobjects]

theorem exists_of_mem_of_forall₂ {α β : Type} {R : α → β → Prop}
    {left : List α} {right : List β} (hrelated : List.Forall₂ R left right)
    {a : α} (ha : a ∈ left) : ∃ b, R a b := by
  induction hrelated with
  | nil => cases ha
  | cons hfirst _ ih =>
      rcases List.mem_cons.mp ha with rfl | hlater
      · exact ⟨_, hfirst⟩
      · exact ih hlater

/-- The encoder appends a layout of the first of the two values. -/
def AppendsLeft (v _w : Value) : Prop :=
  ∀ depth buf, Appends (encodeValue (encodeSectionTo depth) buf v) buf v

theorem Enumerated.encodeSectionTo_laid {s t : Section}
    (henum : Enumerated AppendsLeft s t) (depth : ℕ) (buf : Bytes) :
    Appends (encodeSectionTo depth buf s) buf (objectVal s) := by
  apply Levin.encodeSectionTo_laid henum.nodup_left
  intro name v hv
  obtain ⟨left, right, hleft, -, happends⟩ := henum.lookup
    (List.mem_map_of_mem (f := Prod.fst) (mem_of_lookup hv))
  rw [hleft, Option.some.injEq] at hv
  subst hv
  exact happends

theorem Reenumerated.appendsLeft {v w : Value} (hsame : Reenumerated v w) :
    AppendsLeft v w := by
  refine hsame.induct ?_
  intro v w _ hsections depth buf
  apply encodeValue_laid
  intro s hs
  obtain ⟨t, henum⟩ := exists_of_mem_of_forall₂ hsections hs
  exact henum.encodeSectionTo_laid depth

/-- All enumerations of a section, down to the innermost maps, have the same
encoding or are refused with the same error; and in the encoding the entries of
every section stand in the order of their names. -/
theorem encodeStorage_ignores_order {s t : Section} (hsame : SameSection s t) :
    encodeStorage s = encodeStorage t ∧
      ∀ bytes, encodeStorage s = .returned bytes →
        ∃ body, bytes = storageHeader ++ body ∧ Laid (objectVal s) body := by
  refine ⟨hsame.encodeStorage_eq, ?_⟩
  exact (hsame.mono fun _ _ => Reenumerated.appendsLeft).encodeSectionTo_laid
    _ storageHeader

theorem reenumerated_of_no_fields {v : Value} (hobject : v.objectVal = [])
    (hobjects : v.objectArray = []) : Reenumerated v v := by
  have hsections : v.sections = [[]] := by
    rw [Value.sections, hobject, hobjects]
  refine .intro [[]] v.sameScalars_refl hsections ?_ (by simp) (by simp)
  rw [hsections]
  exact .cons .nil .nil

def sampleInner : List FieldPair :=
  [⟨text "y", uint8Val 2, uint8Val 2⟩, ⟨text "x", uint8Val 3, uint8Val 3⟩]

def sampleFields : List FieldPair :=
  [⟨text "b", uint8Val 1, uint8Val 1⟩,
    ⟨text "a", objectVal (sampleInner.map FieldPair.leftField),
      objectVal (sampleInner.map FieldPair.rightField).reverse⟩]

def sampleLeft : Section := sampleFields.map FieldPair.leftField

def sampleRight : Section := (sampleFields.map FieldPair.rightField).reverse

theorem sameSection_sample : SameSection sampleLeft sampleRight := by
  have hinner : ∀ pair ∈ sampleInner, Reenumerated pair.left pair.right := by
    intro pair hpair
    simp only [sampleInner, List.mem_cons, List.not_mem_nil, or_false] at hpair
    rcases hpair with rfl | rfl
    · exact reenumerated_of_no_fields rfl rfl
    · exact reenumerated_of_no_fields rfl rfl
  refine ⟨sampleFields, rfl, List.reverse_perm _, by decide, ?_⟩
  intro pair hpair
  simp only [sampleFields, List.mem_cons, List.not_mem_nil, or_false] at hpair
  rcases hpair with rfl | rfl
  · exact reenumerated_of_no_fields rfl rfl
  · refine .intro [sampleInner] (sameScalars_objectVal _ _) rfl ?_ ?_ ?_
    · exact .cons (List.reverse_perm _) .nil
    · intro pairs hpairs
      rw [List.mem_singleton.mp hpairs]
      decide
    · intro pairs hpairs
      rw [List.mem_singleton.mp hpairs]
      exact hinner

/-- Both levels in the opposite order. -/
theorem encodeStorage_ignores_order_sample :
    SameSection sampleLeft sampleRight ∧
      encodeStorage sampleLeft = encodeStorage sampleRight ∧
      ∃ bytes, encodeStorage sampleLeft = .returned bytes ∧
        ∃ body, bytes = storageHeader ++ body ∧
          Laid (objectVal sampleLeft) body := by
  have hsample := encodeStorage_ignores_order sameSection_sample
  exact ⟨sameSection_sample, hsample.1, _, rfl, hsample.2 _ rfl⟩

end GoP2P.Levin
