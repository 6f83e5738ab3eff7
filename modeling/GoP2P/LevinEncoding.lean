import GoP2P.LevinDocuments

/-!
# The storage encoder writes canonical texts

A section built from the constructors has a canonical text, the encoder writes
exactly that text, and every text the decoder accepts has a canonical one of the
same section that is no longer.  Round trip and canonicalisation of whole
documents are assembled from these three facts and from the decoder's agreement
with the format.
-/

namespace GoP2P.Levin

open SortedAssoc

/-! ## Depth -/

theorem depth_le_sectionDepth {s : Section} {field : Bytes × Value}
    (hfield : field ∈ s) : field.2.depth ≤ sectionDepth s := by
  induction s with
  | nil => simp at hfield
  | cons first fields ih =>
      obtain ⟨name, value⟩ := first
      rw [sectionDepth]
      rcases List.mem_cons.mp hfield with rfl | hlater
      · exact le_max_left _ _
      · exact (ih hlater).trans (le_max_right _ _)

theorem sectionDepth_le_sectionsDepth {sections : List Section} {s : Section}
    (hs : s ∈ sections) : sectionDepth s ≤ sectionsDepth sections := by
  induction sections with
  | nil => simp at hs
  | cons first sections ih =>
      rw [sectionsDepth]
      rcases List.mem_cons.mp hs with rfl | hlater
      · exact le_max_left _ _
      · exact (ih hlater).trans (le_max_right _ _)

theorem depth_objectVal (s : Section) :
    (objectVal s).depth = sectionDepth s + 1 := by
  simp [objectVal, Value.depth, sectionsDepth]

theorem depth_objectArrayVal (sections : List Section) :
    (objectArrayVal sections).depth = sectionsDepth sections + 1 := by
  simp [objectArrayVal, Value.depth, sectionDepth]

/-! ## The encoder on canonical texts -/

theorem ValueText.type_eq {strict : Bool} {kind : Kind} {bytes : Bytes}
    {value : Value} (htext : ValueText strict kind bytes value) :
    value.type = kind.tag := by
  cases htext with
  | fixed kind => cases kind <;> rfl
  | _ => rfl

theorem VarintText.eq_packVarint {bytes : Bytes} {value : ℕ}
    (htext : VarintText true bytes value) :
    packVarint (UInt64.ofNat value) = bytes := by
  rw [packVarint_eq htext.value_lt, ← htext.eq_shortest]

theorem setWidth_signExtend {narrow wide : ℕ} (hle : narrow ≤ wide)
    (x : BitVec narrow) : (x.signExtend wide).setWidth narrow = x := by
  apply BitVec.eq_of_getLsbD_eq
  intro i hi
  have hwide : i < wide := by omega
  rw [BitVec.getLsbD_setWidth, BitVec.getLsbD_signExtend]
  simp [hi, hwide]

theorem toUInt32_sign_extended (x : UInt32) :
    x.toInt32.toInt64.toUInt64.toUInt32 = x := by
  apply UInt32.eq_of_toBitVec_eq
  rw [UInt64.toBitVec_toUInt32]
  exact setWidth_signExtend (by decide) x.toBitVec

theorem toUInt16_sign_extended (x : UInt16) :
    x.toInt16.toInt64.toUInt64.toUInt16 = x := by
  apply UInt16.eq_of_toBitVec_eq
  rw [UInt64.toBitVec_toUInt16]
  exact setWidth_signExtend (by decide) x.toBitVec

theorem toUInt8_sign_extended (x : UInt8) :
    x.toInt8.toInt64.toUInt64.toUInt8 = x := by
  apply UInt8.eq_of_toBitVec_eq
  rw [UInt64.toBitVec_toUInt8]
  exact setWidth_signExtend (by decide) x.toBitVec

section Encoder

variable {enc : Bytes → Section → Outcome CoreError Bytes}

def FixedKind.bits : FixedKind → Value → ℕ
  | int64 => fun v => v.intVal.toUInt64.toNat
  | int32 => fun v => v.intVal.toUInt64.toUInt32.toNat
  | int16 => fun v => v.intVal.toUInt64.toUInt16.toNat
  | int8 => fun v => v.intVal.toUInt64.toUInt8.toNat
  | uint64 => fun v => v.uintVal.toNat
  | uint32 => fun v => v.uintVal.toUInt32.toNat
  | uint16 => fun v => v.uintVal.toUInt16.toNat
  | uint8 => fun v => v.uintVal.toUInt8.toNat
  | double => fun v => v.floatVal.toNat

theorem FixedKind.bits_value (kind : FixedKind) {n : ℕ}
    (hn : n < 256 ^ kind.width) : kind.bits (kind.value n) = n := by
  cases kind with
  | int64 => exact UInt64.toNat_ofNat_of_lt' hn
  | int32 =>
      change (UInt32.ofNat n).toInt32.toInt64.toUInt64.toUInt32.toNat = n
      rw [toUInt32_sign_extended]
      exact UInt32.toNat_ofNat_of_lt' hn
  | int16 =>
      change (UInt16.ofNat n).toInt16.toInt64.toUInt64.toUInt16.toNat = n
      rw [toUInt16_sign_extended]
      exact UInt16.toNat_ofNat_of_lt' hn
  | int8 =>
      change (UInt8.ofNat n).toInt8.toInt64.toUInt64.toUInt8.toNat = n
      rw [toUInt8_sign_extended]
      exact UInt8.toNat_ofNat_of_lt' hn
  | uint64 => exact UInt64.toNat_ofNat_of_lt' hn
  | uint32 =>
      change (UInt32.ofNat n).toUInt64.toUInt32.toNat = n
      rw [UInt32.toUInt32_toUInt64]
      exact UInt32.toNat_ofNat_of_lt' hn
  | uint16 =>
      change (UInt16.ofNat n).toUInt64.toUInt16.toNat = n
      rw [UInt16.toUInt16_toUInt64]
      exact UInt16.toNat_ofNat_of_lt' hn
  | uint8 =>
      change (UInt8.ofNat n).toUInt64.toUInt8.toNat = n
      rw [UInt8.toUInt8_toUInt64]
      exact UInt8.toNat_ofNat_of_lt' hn
  | double => exact UInt64.toNat_ofNat_of_lt' hn

theorem encodeValue_of_fixed {kind : FixedKind} {v : Value}
    (htype : v.type = kind.tag) (buf : Bytes) :
    encodeValue enc buf v =
      .returned (buf ++ leBytes kind.width (kind.bits v)) := by
  unfold encodeValue
  rw [htype]
  cases kind with
  | int8 =>
      change Outcome.returned (buf ++ [v.intVal.toUInt64.toUInt8]) =
        .returned (buf ++ [UInt8.ofNat v.intVal.toUInt64.toUInt8.toNat])
      rw [UInt8.ofNat_toNat]
  | uint8 =>
      change Outcome.returned (buf ++ [v.uintVal.toUInt8]) =
        .returned (buf ++ [UInt8.ofNat v.uintVal.toUInt8.toNat])
      rw [UInt8.ofNat_toNat]
  | _ => rfl

theorem encodeValue_bool (b : Bool) (buf : Bytes) :
    encodeValue enc buf (boolVal b) =
      .returned (buf ++ [if b then 1 else 0]) := by
  have htype : (boolVal b).type = typeBool := rfl
  unfold encodeValue
  rw [htype]
  cases b <;> rfl

theorem encodeValue_string (data buf : Bytes) :
    encodeValue enc buf (stringVal data) =
      .returned (buf ++ (packVarint (UInt64.ofNat data.length) ++ data)) := by
  have htype : (stringVal data).type = typeString := rfl
  unfold encodeValue
  rw [htype, ← List.append_assoc]
  rfl

theorem encodeValue_object (s : Section) (buf : Bytes) :
    encodeValue enc buf (objectVal s) = enc buf s := by
  have htype : (objectVal s).type = typeObject := rfl
  unfold encodeValue
  rw [htype]
  rfl

theorem foldl_append_eq {α : Type} (f : α → Bytes) (xs : List α) (buf : Bytes) :
    xs.foldl (fun buf x => buf ++ f x) buf = buf ++ xs.flatMap f := by
  induction xs generalizing buf with
  | nil => simp
  | cons x xs ih => simp [ih]

theorem encodeValue_uint64Array (vs : List UInt64) (buf : Bytes) :
    encodeValue enc buf (uint64ArrayVal vs) =
      .returned (buf ++ (packVarint (UInt64.ofNat vs.length) ++
        vs.flatMap fun n => leBytes 8 n.toNat)) := by
  have htype : (uint64ArrayVal vs).type = arrayFlag ||| typeUint64 := rfl
  rw [← List.append_assoc, ← foldl_append_eq]
  unfold encodeValue encodeArray
  rw [htype]
  rfl

theorem encodeValue_uint32Array (vs : List UInt32) (buf : Bytes) :
    encodeValue enc buf (uint32ArrayVal vs) =
      .returned (buf ++ (packVarint (UInt64.ofNat vs.length) ++
        vs.flatMap fun n => leBytes 4 n.toNat)) := by
  have htype : (uint32ArrayVal vs).type = arrayFlag ||| typeUint32 := rfl
  rw [← List.append_assoc, ← foldl_append_eq]
  unfold encodeValue encodeArray
  rw [htype]
  rfl

theorem encodeValue_stringArray (vs : List Bytes) (buf : Bytes) :
    encodeValue enc buf (stringArrayVal vs) =
      .returned (buf ++ (packVarint (UInt64.ofNat vs.length) ++
        vs.flatMap fun s => packVarint (UInt64.ofNat s.length) ++ s)) := by
  have htype : (stringArrayVal vs).type = arrayFlag ||| typeString := rfl
  rw [← List.append_assoc, ← foldl_append_eq]
  simp only [← List.append_assoc]
  unfold encodeValue encodeArray
  rw [htype]
  rfl

theorem encodeValue_objectArray (vs : List Section) (buf : Bytes) :
    encodeValue enc buf (objectArrayVal vs) =
      encodeSections enc vs (buf ++ packVarint (UInt64.ofNat vs.length)) := by
  have htype : (objectArrayVal vs).type = arrayFlag ||| typeObject := rfl
  unfold encodeValue encodeArray
  rw [htype]
  rfl

theorem encodeSections_eq {items : List (Bytes × Section)}
    (hitems : ∀ item ∈ items, ∀ buf,
      enc buf item.2 = .returned (buf ++ item.1)) (buf : Bytes) :
    encodeSections enc (items.map Prod.snd) buf =
      .returned (buf ++ items.flatMap Prod.fst) := by
  induction items generalizing buf with
  | nil => simp [encodeSections]
  | cons item items ih =>
      rw [List.map_cons, encodeSections, hitems item (by simp),
        Outcome.returned_bind, ih fun other hother =>
          hitems other (by simp [hother])]
      simp

end Encoder

theorem encodeEntries_eq
    {encValue : Bytes → Value → Outcome CoreError Bytes} {s : Section}
    (hsorted : Sorted s) {entries : List Entry}
    (hfields : ∀ entry ∈ entries, entry.field ∈ s)
    (hnames : ∀ entry ∈ entries, entry.name.length ≤ 255)
    (htypes : ∀ entry ∈ entries, entry.value.type = entry.kind.tag)
    (hvalues : ∀ entry ∈ entries, ∀ buf,
      encValue buf entry.value = .returned (buf ++ entry.body)) (buf : Bytes) :
    encodeEntries encValue s (entries.map Entry.name) buf =
      .returned (buf ++ entries.flatMap Entry.text) := by
  induction entries generalizing buf with
  | nil => simp [encodeEntries]
  | cons entry entries ih =>
      have hlookup : s.lookup entry.name = some entry.value :=
        lookup_of_mem hsorted (hfields entry (by simp))
      have hname : ¬ entry.name.length > 255 :=
        Nat.not_lt.mpr (hnames entry (by simp))
      rw [List.map_cons, encodeEntries, hlookup]
      simp only [Option.getD_some]
      rw [if_neg hname, hvalues entry (by simp), Outcome.returned_bind,
        htypes entry (by simp), ih
          (fun other hother => hfields other (by simp [hother]))
          (fun other hother => hnames other (by simp [hother]))
          (fun other hother => htypes other (by simp [hother]))
          (fun other hother => hvalues other (by simp [hother]))]
      simp [Entry.text]

theorem encodeSectionWith_eq
    {encValue : Bytes → Value → Outcome CoreError Bytes}
    {count : Bytes} {entries : List Entry}
    (hcount : VarintText true count entries.length)
    (hsorted : Sorted (entries.map Entry.field))
    (hnames : ∀ entry ∈ entries, entry.name.length ≤ 255)
    (htypes : ∀ entry ∈ entries, entry.value.type = entry.kind.tag)
    (hvalues : ∀ entry ∈ entries, ∀ buf,
      encValue buf entry.value = .returned (buf ++ entry.body)) (buf : Bytes) :
    encodeSectionWith encValue buf (entries.map Entry.field) =
      .returned (buf ++ (count ++ entries.flatMap Entry.text)) := by
  have hkeys : (entries.map Entry.field).map Prod.fst =
      entries.map Entry.name := by
    rw [List.map_map]
    rfl
  unfold encodeSectionWith
  rw [insertionSort_keys hsorted, hkeys]
  simp only [List.length_map]
  rw [hcount.eq_packVarint, encodeEntries_eq hsorted
    (fun entry hentry => List.mem_map_of_mem hentry) hnames htypes hvalues,
    List.append_assoc]

theorem encodeValue_of_text {strict : Bool} {kind : Kind} {bytes : Bytes}
    {value : Value} (htext : ValueText strict kind bytes value)
    (hstrict : strict = true) {depth : ℕ} (hdepth : value.depth ≤ depth)
    (buf : Bytes) :
    encodeValue (encodeSectionTo depth) buf value = .returned (buf ++ bytes) := by
  subst hstrict
  induction htext generalizing depth buf with
  | fixed kind raw hwidth =>
      have hbound := leNat_lt raw
      rw [hwidth] at hbound
      have htype : (kind.value (leNat raw)).type = kind.tag :=
        ValueText.type_eq (.fixed kind raw hwidth : ValueText true _ _ _)
      rw [encodeValue_of_fixed htype, kind.bits_value hbound, ← hwidth,
        leBytes_leNat]
  | bool byte hbyte =>
      rw [encodeValue_bool]
      rcases hbyte rfl with rfl | rfl <;> rfl
  | string count data hcount =>
      rw [encodeValue_string, hcount.eq_packVarint]
  | object count entries hcount hnames hvalues hsorted ih =>
      have hassign : assignAll [] (entries.map Entry.field) =
          entries.map Entry.field := assignAll_of_sorted (hsorted rfl)
      rw [hassign, depth_objectVal] at hdepth
      rw [encodeValue_object, hassign]
      obtain ⟨inner, rfl⟩ : ∃ inner, depth = inner + 1 :=
        ⟨depth - 1, by omega⟩
      apply encodeSectionWith_eq hcount (hsorted rfl) hnames
      · exact fun entry hentry => (hvalues entry hentry).type_eq
      · intro entry hentry buf
        have hfield := depth_le_sectionDepth
          (List.mem_map_of_mem (f := Entry.field) hentry)
        exact ih entry hentry (by
          change entry.value.depth ≤ _ at hfield
          omega) buf
  | uint64Array count elements hcount =>
      rw [encodeValue_uint64Array, hcount.eq_packVarint]
  | uint32Array count elements hcount =>
      rw [encodeValue_uint32Array, hcount.eq_packVarint]
  | stringArray count items hcount hitems =>
      rw [encodeValue_stringArray, List.length_map, hcount.eq_packVarint,
        List.flatMap_map]
      congr 3
      apply List.flatMap_congr
      intro item hitem
      rw [(hitems item hitem).eq_packVarint]
  | objectArray count items hcount hitems ih =>
      rw [depth_objectArrayVal] at hdepth
      rw [encodeValue_objectArray, List.length_map, hcount.eq_packVarint,
        encodeSections_eq, List.append_assoc]
      intro item hitem buf
      have hsection := sectionDepth_le_sectionsDepth
        (List.mem_map_of_mem (f := Prod.snd) hitem)
      have hinner : (objectVal item.2).depth ≤ depth := by
        rw [depth_objectVal]
        omega
      have hencode := ih item hitem hinner buf
      rwa [encodeValue_object] at hencode

end GoP2P.Levin
