import GoP2P.LevinRoundTrip

/-!
# Which sections the encoder accepts

The encoder checks names in one function, scalar tags in a second and array
tags in a third, on the way through a tree of sections.  Together the checks
come to one condition on the sections that can be reached from the root, and
the tags it allows are those of the decoder's three switches.  A section is
read as the map it stands for, by `lookup`.
-/

namespace GoP2P.Levin

open SortedAssoc

/-- The twelve scalar tags and the four array tags. -/
def acceptedTags : List UInt8 :=
  [typeInt64, typeInt32, typeInt16, typeInt8, typeUint64, typeUint32,
    typeUint16, typeUint8, typeDouble, typeString, typeBool, typeObject,
    arrayFlag ||| typeUint64, arrayFlag ||| typeUint32,
    arrayFlag ||| typeString, arrayFlag ||| typeObject]

/-- The sections inside a value that its type gives a meaning to. -/
def Value.subsections (v : Value) : List Section :=
  if v.type = typeObject then [v.objectVal]
  else if v.type = arrayFlag ||| typeObject then v.objectArray
  else []

inductive Reaches (root : Section) : Section → Prop where
  | root : Reaches root root
  | inside {s sub : Section} {name : Bytes} {v : Value} :
      Reaches root s → s.lookup name = some v → sub ∈ v.subsections →
        Reaches root sub

def WellFormed (root : Section) : Prop :=
  ∀ ⦃s⦄, Reaches root s → ∀ ⦃name v⦄, s.lookup name = some v →
    name.length ≤ 255 ∧ v.type ∈ acceptedTags

/-! ## Sections reached through a field -/

theorem Reaches.head {root sub s : Section} {name : Bytes} {v : Value}
    (hfield : root.lookup name = some v) (hsub : sub ∈ v.subsections)
    (hreaches : Reaches sub s) : Reaches root s := by
  induction hreaches with
  | root => exact .inside .root hfield hsub
  | inside _ hinner hmem ih => exact .inside ih hinner hmem

theorem Reaches.cases_head {root s : Section} (hreaches : Reaches root s) :
    s = root ∨ ∃ name v sub, root.lookup name = some v ∧
      sub ∈ v.subsections ∧ Reaches sub s := by
  induction hreaches with
  | root => exact .inl rfl
  | inside _ hfield hsub ih =>
      rcases ih with rfl | ⟨name, v, sub, hfirst, hmem, hrest⟩
      · exact .inr ⟨_, _, _, hfield, hsub, .root⟩
      · exact .inr ⟨name, v, sub, hfirst, hmem, .inside hrest hfield hsub⟩

theorem wellFormed_iff (root : Section) :
    WellFormed root ↔ ∀ name v, root.lookup name = some v →
      name.length ≤ 255 ∧ v.type ∈ acceptedTags ∧
        ∀ sub ∈ v.subsections, WellFormed sub := by
  constructor
  · intro hroot name v hfield
    obtain ⟨hname, htype⟩ := hroot .root hfield
    refine ⟨hname, htype, ?_⟩
    intro sub hsub s hreaches
    exact hroot (hreaches.head hfield hsub)
  · intro hfields s hreaches name v hinner
    rcases hreaches.cases_head with rfl | ⟨first, w, sub, hfield, hsub, hrest⟩
    · obtain ⟨hname, htype, -⟩ := hfields name v hinner
      exact ⟨hname, htype⟩
    · exact (hfields first w hfield).2.2 sub hsub hrest hinner

/-! ## Success of the encoder -/

/-- A call returned a buffer. -/
def Succeeds (result : Outcome CoreError Bytes) : Prop :=
  ∃ bytes, result = .returned bytes

@[simp] theorem succeeds_returned (bytes : Bytes) :
    Succeeds (.returned bytes) := ⟨bytes, rfl⟩

@[simp] theorem not_succeeds_failed (error : CoreError) :
    ¬ Succeeds (.failed error) := by
  rintro ⟨bytes, hreturned⟩
  cases hreturned

theorem succeeds_bind_iff {first : Outcome CoreError Bytes}
    {rest : Bytes → Outcome CoreError Bytes} {P : Prop}
    (hrest : ∀ bytes, Succeeds (rest bytes) ↔ P) :
    Succeeds (first >>= rest) ↔ Succeeds first ∧ P := by
  unfold Succeeds at hrest ⊢
  constructor
  · rintro ⟨bytes, hbind⟩
    obtain ⟨middle, hfirst, hmiddle⟩ := Outcome.bind_eq_returned_iff.mp hbind
    exact ⟨⟨middle, hfirst⟩, (hrest middle).mp ⟨bytes, hmiddle⟩⟩
  · rintro ⟨⟨middle, hfirst⟩, hP⟩
    obtain ⟨bytes, hbytes⟩ := (hrest middle).mpr hP
    exact ⟨bytes, Outcome.bind_eq_returned_iff.mpr ⟨middle, hfirst, hbytes⟩⟩

theorem exists_lookup_of_mem_keys {s : Section} {name : Bytes}
    (hname : name ∈ s.map Prod.fst) : ∃ v, s.lookup name = some v := by
  obtain ⟨field, hfield, rfl⟩ := List.mem_map.mp hname
  apply Option.isSome_iff_exists.mp
  exact List.lookup_isSome_iff.mpr ⟨field, hfield, beq_self_eq_true _⟩

theorem mem_of_lookup {s : Section} {name : Bytes} {v : Value}
    (hlookup : s.lookup name = some v) : (name, v) ∈ s := by
  obtain ⟨front, back, rfl, -⟩ := List.lookup_eq_some_iff.mp hlookup
  simp

section

variable {encValue : Bytes → Value → Outcome CoreError Bytes}
  {encSection : Bytes → Section → Outcome CoreError Bytes}

theorem encodeEntries_succeeds_iff {s : Section} {P : Value → Prop}
    {keys : List Bytes} (hkeys : ∀ name ∈ keys, name ∈ s.map Prod.fst)
    (hvalue : ∀ name v, s.lookup name = some v →
      ∀ buf, Succeeds (encValue buf v) ↔ P v) (buf : Bytes) :
    Succeeds (encodeEntries encValue s keys buf) ↔
      ∀ name ∈ keys, ∀ v, s.lookup name = some v → name.length ≤ 255 ∧ P v := by
  induction keys generalizing buf with
  | nil => simp [encodeEntries]
  | cons name keys ih =>
      obtain ⟨v, hv⟩ := exists_lookup_of_mem_keys (hkeys name (by simp))
      have hlater := ih fun other hother => hkeys other (by simp [hother])
      rw [encodeEntries, hv, Option.getD_some]
      by_cases hlong : name.length > 255
      · simp only [hlong, if_true, not_succeeds_failed, false_iff]
        intro hall
        have hshort := (hall name (by simp) v hv).1
        omega
      · have hshort : name.length ≤ 255 := Nat.le_of_not_lt hlong
        simp only [hlong, if_false]
        rw [succeeds_bind_iff hlater, hvalue name v hv, List.forall_mem_cons]
        simp [hv, hshort]

theorem encodeSectionWith_succeeds_iff {s : Section} {P : Value → Prop}
    (hvalue : ∀ name v, s.lookup name = some v →
      ∀ buf, Succeeds (encValue buf v) ↔ P v) (buf : Bytes) :
    Succeeds (encodeSectionWith encValue buf s) ↔
      ∀ name v, s.lookup name = some v → name.length ≤ 255 ∧ P v := by
  unfold encodeSectionWith
  rw [encodeEntries_succeeds_iff (P := P) ?_ hvalue]
  · constructor
    · intro hkeys name v hv
      refine hkeys name ?_ v hv
      rw [List.mem_insertionSort]
      exact List.mem_map_of_mem (f := Prod.fst) (mem_of_lookup hv)
    · intro hall name _ v hv
      exact hall name v hv
  · intro name hname
    rwa [List.mem_insertionSort] at hname

theorem encodeSections_succeeds_iff {sections : List Section}
    {P : Section → Prop}
    (hsection : ∀ s ∈ sections, ∀ buf, Succeeds (encSection buf s) ↔ P s)
    (buf : Bytes) :
    Succeeds (encodeSections encSection sections buf) ↔
      ∀ s ∈ sections, P s := by
  induction sections generalizing buf with
  | nil => simp [encodeSections]
  | cons s sections ih =>
      have hlater := ih fun other hother => hsection other (by simp [hother])
      rw [encodeSections, succeeds_bind_iff hlater, hsection s (by simp),
        List.forall_mem_cons]

/-! ### Values -/

theorem mem_acceptedTags_iff {tag : UInt8} :
    tag ∈ acceptedTags ↔ ∃ kind : Kind, kind.tag = tag := by
  constructor
  · intro htag
    simp only [acceptedTags, List.mem_cons, List.not_mem_nil,
      or_false] at htag
    rcases htag with h | h | h | h | h | h | h | h | h | h | h | h | h | h |
      h | h
    · exact ⟨.fixed .int64, h.symm⟩
    · exact ⟨.fixed .int32, h.symm⟩
    · exact ⟨.fixed .int16, h.symm⟩
    · exact ⟨.fixed .int8, h.symm⟩
    · exact ⟨.fixed .uint64, h.symm⟩
    · exact ⟨.fixed .uint32, h.symm⟩
    · exact ⟨.fixed .uint16, h.symm⟩
    · exact ⟨.fixed .uint8, h.symm⟩
    · exact ⟨.fixed .double, h.symm⟩
    · exact ⟨.string, h.symm⟩
    · exact ⟨.bool, h.symm⟩
    · exact ⟨.object, h.symm⟩
    · exact ⟨.uint64Array, h.symm⟩
    · exact ⟨.uint32Array, h.symm⟩
    · exact ⟨.stringArray, h.symm⟩
    · exact ⟨.objectArray, h.symm⟩
  · rintro ⟨kind, rfl⟩
    cases kind with
    | fixed kind => cases kind <;> decide
    | _ => decide

theorem subsections_of_object {v : Value} (htype : v.type = typeObject) :
    v.subsections = [v.objectVal] := by
  unfold Value.subsections
  rw [if_pos htype]

theorem subsections_of_objectArray {v : Value}
    (htype : v.type = arrayFlag ||| typeObject) :
    v.subsections = v.objectArray := by
  unfold Value.subsections
  rw [if_neg (by rw [htype]; decide), if_pos htype]

theorem subsections_of_other {v : Value} {kind : Kind}
    (htype : kind.tag = v.type) (hobject : kind ≠ .object)
    (hobjects : kind ≠ .objectArray) : v.subsections = [] := by
  have hscalar : v.type ≠ typeObject := fun h =>
    hobject (Kind.tag_injective (htype.trans h))
  have harray : v.type ≠ arrayFlag ||| typeObject := fun h =>
    hobjects (Kind.tag_injective (htype.trans h))
  unfold Value.subsections
  rw [if_neg hscalar, if_neg harray]

theorem encodeArray_unknown {v : Value} (harray : v.type &&& arrayFlag ≠ 0)
    (hunknown : ∀ kind : Kind, kind.tag ≠ v.type) (buf : Bytes) :
    ¬ Succeeds (encodeArray encSection buf v) := by
  have hflag := arrayFlag_or_elemType v.type harray
  have helem : ∀ kind : Kind, ∀ elem, kind.tag = arrayFlag ||| elem →
      v.type &&& ~~~arrayFlag ≠ elem := by
    rintro kind _ hkind rfl
    exact hunknown kind (hkind.trans hflag)
  unfold encodeArray
  dsimp only
  rw [if_neg (helem .uint64Array _ rfl), if_neg (helem .uint32Array _ rfl),
    if_neg (helem .stringArray _ rfl), if_neg (helem .objectArray _ rfl)]
  exact not_succeeds_failed _

theorem encodeValue_unknown {v : Value}
    (hunknown : ∀ kind : Kind, kind.tag ≠ v.type) (buf : Bytes) :
    ¬ Succeeds (encodeValue encSection buf v) := by
  have hne : ∀ kind : Kind, ∀ tag, kind.tag = tag → v.type ≠ tag := by
    rintro kind _ rfl htag
    exact hunknown kind htag.symm
  unfold encodeValue
  by_cases harray : v.type &&& arrayFlag ≠ 0
  · rw [if_pos harray]
    exact encodeArray_unknown harray hunknown buf
  · rw [if_neg harray, if_neg (hne (.fixed .uint64) typeUint64 rfl),
      if_neg (hne (.fixed .int64) typeInt64 rfl),
      if_neg (hne (.fixed .double) typeDouble rfl),
      if_neg (hne (.fixed .uint32) typeUint32 rfl),
      if_neg (hne (.fixed .int32) typeInt32 rfl),
      if_neg (hne (.fixed .uint16) typeUint16 rfl),
      if_neg (hne (.fixed .int16) typeInt16 rfl),
      if_neg (hne (.fixed .uint8) typeUint8 rfl),
      if_neg (hne (.fixed .int8) typeInt8 rfl),
      if_neg (hne .bool typeBool rfl), if_neg (hne .string typeString rfl),
      if_neg (hne .object typeObject rfl)]
    exact not_succeeds_failed _

/-- A value of a known type is encoded if the sections inside it are. -/
theorem encodeValue_known {v : Value} {kind : Kind} (htype : kind.tag = v.type)
    {P : Section → Prop} (hsub : ∀ sub ∈ v.subsections, ∀ buf,
      Succeeds (encSection buf sub) ↔ P sub) (buf : Bytes) :
    Succeeds (encodeValue encSection buf v) ↔ ∀ sub ∈ v.subsections, P sub := by
  cases kind with
  | fixed kind =>
      rw [encodeValue_of_fixed htype.symm,
        subsections_of_other htype (by simp) (by simp)]
      simp
  | object =>
      have hencode : encodeValue encSection buf v =
          encSection buf v.objectVal := by
        unfold encodeValue
        rw [← htype]
        rfl
      rw [subsections_of_object htype.symm] at hsub ⊢
      rw [hencode, hsub v.objectVal List.mem_cons_self buf]
      simp
  | objectArray =>
      have hencode : encodeValue encSection buf v =
          encodeSections encSection v.objectArray
            (buf ++ packVarint (UInt64.ofNat v.objectArray.length)) := by
        unfold encodeValue encodeArray
        rw [← htype]
        rfl
      rw [subsections_of_objectArray htype.symm] at hsub ⊢
      rw [hencode]
      exact encodeSections_succeeds_iff hsub _
  | bool =>
      rw [subsections_of_other htype (by simp) (by simp)]
      unfold encodeValue
      rw [← htype]
      refine iff_of_true ?_ (by simp)
      cases v.boolVal <;> exact ⟨_, rfl⟩
  | string | uint64Array | uint32Array | stringArray =>
      rw [subsections_of_other htype (by simp) (by simp)]
      unfold encodeValue encodeArray
      rw [← htype]
      exact iff_of_true ⟨_, rfl⟩ (by simp)

theorem encodeValue_succeeds_iff {v : Value} {P : Section → Prop}
    (hsub : ∀ sub ∈ v.subsections, ∀ buf,
      Succeeds (encSection buf sub) ↔ P sub) (buf : Bytes) :
    Succeeds (encodeValue encSection buf v) ↔
      v.type ∈ acceptedTags ∧ ∀ sub ∈ v.subsections, P sub := by
  by_cases hknown : ∃ kind : Kind, kind.tag = v.type
  · have haccepted := mem_acceptedTags_iff.mpr hknown
    obtain ⟨kind, htype⟩ := hknown
    rw [encodeValue_known htype hsub]
    exact (and_iff_right haccepted).symm
  · have hrejected := mem_acceptedTags_iff.not.mpr hknown
    push Not at hknown
    exact iff_of_false (encodeValue_unknown hknown buf)
      fun haccepted => hrejected haccepted.1

end

/-! ## Whole sections -/

theorem subsections_depth_lt {v : Value} {sub : Section}
    (hsub : sub ∈ v.subsections) : sectionDepth sub < v.depth := by
  obtain ⟨type, intVal, uintVal, floatVal, boolVal, bytesVal, object,
    uint64Array, uint32Array, stringArray, objects⟩ := v
  rw [Value.depth]
  unfold Value.subsections at hsub
  dsimp only at hsub
  split_ifs at hsub
  · rw [List.mem_singleton] at hsub
    subst hsub
    omega
  · have hle := sectionDepth_le_sectionsDepth hsub
    omega
  · simp at hsub

/-- At any depth that covers the section. -/
theorem encodeSectionTo_succeeds_iff {depth : ℕ} {s : Section}
    (hdepth : sectionDepth s < depth) (buf : Bytes) :
    Succeeds (encodeSectionTo depth buf s) ↔ WellFormed s := by
  induction depth generalizing s buf with
  | zero => omega
  | succ depth ih =>
      rw [wellFormed_iff, encodeSectionTo]
      apply encodeSectionWith_succeeds_iff
      intro name v hfield buf
      have hle : v.depth ≤ sectionDepth s :=
        depth_le_sectionDepth (mem_of_lookup hfield)
      apply encodeValue_succeeds_iff
      intro sub hsub buf
      have hlt := subsections_depth_lt hsub
      exact ih (by omega) buf

/-! ## The two sets of tags -/

theorem mem_acceptedTags_of_encodeValue {v : Value} {buf : Bytes}
    (hencoded : Succeeds (encodeValue encodeSection buf v)) :
    v.type ∈ acceptedTags := by
  by_contra hrejected
  rw [mem_acceptedTags_iff] at hrejected
  push Not at hrejected
  exact encodeValue_unknown hrejected buf hencoded

/-- A value of the type whose other fields are zero is encoded. -/
theorem encodeValue_zero {tag : UInt8} (htag : tag ∈ acceptedTags)
    (buf : Bytes) :
    Succeeds (encodeValue encodeSection buf { type := tag }) := by
  refine (encodeValue_succeeds_iff (P := fun _ => True) ?_ buf).mpr
    ⟨htag, fun _ _ => trivial⟩
  intro sub hsub buf
  have hempty : sub = [] := by
    unfold Value.subsections at hsub
    split_ifs at hsub
    · exact List.mem_singleton.mp hsub
    · cases hsub
    · cases hsub
  subst hempty
  exact iff_of_true ⟨_, rfl⟩ trivial

theorem mem_acceptedTags_of_decodeValue {tag : UInt8} {buf : Bytes}
    {result : Value × ℕ}
    (hdecoded : (decodeValue decodeSection buf tag).outcome =
      .returned result) : tag ∈ acceptedTags := by
  have hdecodes := decodeValue_decodes buf tag
    fun rest _ => decodeSection_decodes rest
  obtain ⟨_, _, -, ⟨kind, hkind, -⟩, -⟩ :=
    (hdecodes.returned_iff result.1 result.2).mp hdecoded
  exact mem_acceptedTags_iff.mpr ⟨kind, hkind⟩

/-- Eight zero bytes are a value of every type. -/
theorem decodeValue_zero {tag : UInt8} (htag : tag ∈ acceptedTags) :
    ∃ result, (decodeValue decodeSection (List.replicate 8 0) tag).outcome =
      .returned result := by
  obtain ⟨kind, rfl⟩ := mem_acceptedTags_iff.mp htag
  cases kind with
  | fixed kind => cases kind <;> exact ⟨_, rfl⟩
  | _ => exact ⟨_, rfl⟩

/-- A section is encoded exactly if every name within it is short enough and
every type is known; and encoder and decoder know the same types. -/
theorem encodeStorage_succeeds_iff (s : Section) :
    ((∃ bytes, encodeStorage s = .returned bytes) ↔ WellFormed s) ∧
      ∀ tag : UInt8,
        ((∃ buf v bytes, v.type = tag ∧
            encodeValue encodeSection buf v = .returned bytes) ↔
          tag ∈ acceptedTags) ∧
        ((∃ buf result, (decodeValue decodeSection buf tag).outcome =
            .returned result) ↔
          tag ∈ acceptedTags) := by
  refine ⟨encodeSectionTo_succeeds_iff (Nat.lt_succ_self _) storageHeader, ?_⟩
  intro tag
  refine ⟨⟨?_, ?_⟩, ⟨?_, ?_⟩⟩
  · rintro ⟨buf, v, bytes, rfl, hencoded⟩
    exact mem_acceptedTags_of_encodeValue ⟨bytes, hencoded⟩
  · intro htag
    obtain ⟨bytes, hencoded⟩ := encodeValue_zero htag []
    exact ⟨[], { type := tag }, bytes, rfl, hencoded⟩
  · rintro ⟨buf, result, hdecoded⟩
    exact mem_acceptedTags_of_decodeValue hdecoded
  · intro htag
    exact ⟨_, decodeValue_zero htag⟩

/-- An unknown type inside an object keeps its section from being encoded,
and in a field the type gives no meaning to it does not. -/
example :
    (∃ error, encodeStorage [(text "a", objectVal [(text "b", {})])] =
        .failed error) ∧
      ∃ bytes, encodeStorage
        [(text "a", { uint8Val 5 with objectVal := [(text "b", {})] })] =
          .returned bytes :=
  ⟨⟨_, rfl⟩, ⟨_, rfl⟩⟩

end GoP2P.Levin
