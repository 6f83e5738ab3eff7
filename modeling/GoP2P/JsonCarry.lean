import GoP2P.JsonStructs

/-!
# Values that go through an `any`

A value that is encoded, decoded into an `any`, encoded again and decoded by
its type comes back with its strings made UTF-8 and its integers carried through
floats (`GoType.carry`).
-/

namespace GoP2P

section

variable (printer : FloatPrinter)

def FloatPrinter.carryInt64 (n : Int64) : Option Int64 :=
  if InInt64 (printer.carry n.toInt) then
    some (.ofInt (printer.carry n.toInt))
  else none

variable {printer}

mutual

/-- The tree of what an encoded value is decoded into as an `any`. -/
def GoType.anyOf : (type : GoType) → type.Value printer → Json Bytes
  | .bool, value => .bool value
  | .integer _, value => .number (.ofInt (printer.carry value.toInt))
  | .float64, value => .number value.1
  | .string, value => .string (utf8 (decodeText value))
  | .slice _, none => .null
  | .slice element, some values => .array (values.map element.anyOf)
  | .struct fields, values =>
      .object (SortedAssoc.assignAll [] (fields.anyOf values))

def GoFields.anyOf :
    (fields : GoFields) → fields.Values printer → List (Bytes × Json Bytes)
  | .nil, _ => []
  | .cons name omitEmpty type rest, (value, values) =>
      if omitEmpty && type.isEmpty value then rest.anyOf values
      else (utf8 name, type.anyOf value) :: rest.anyOf values

end

/-- A field that is left out keeps its zero value. -/
def unlessOmitted {α : Type*} (omitted : Bool) (zero : α) (carried : Option α) :
    Option α :=
  if omitted then some zero else carried

mutual

/-- What comes back of a value that goes through an `any`, if it can be
decoded. -/
def GoType.carry :
    (type : GoType) → type.Value printer → Option (type.Value printer)
  | .bool, value => some value
  | .integer _, value => printer.carryInt64 value
  | .float64, value => some value
  | .string, value => some (utf8 (decodeText value))
  | .slice _, none => some none
  | .slice element, some values => (values.mapM element.carry).map some
  | .struct fields, values => fields.carry values

def GoFields.carry :
    (fields : GoFields) → fields.Values printer → Option (fields.Values printer)
  | .nil, values => some values
  | .cons _ omitEmpty type rest, (value, values) => do
      let value ← unlessOmitted (omitEmpty && type.isEmpty value)
        (type.zero printer) (type.carry value)
      let values ← rest.carry values
      pure (value, values)

end

mutual

/-- The integers of the selected kinds, in the order of the fields. -/
def GoType.integers (selected : IntegerKind → Bool) :
    (type : GoType) → type.Value printer → List Int64
  | .integer kind, value => if selected kind then [value] else []
  | .slice element, value =>
      (value.getD []).flatMap (element.integers selected)
  | .struct fields, values => fields.integers selected values
  | .bool, _ | .float64, _ | .string, _ => []

def GoFields.integers (selected : IntegerKind → Bool) :
    (fields : GoFields) → fields.Values printer → List Int64
  | .nil, _ => []
  | .cons _ _ type rest, (value, values) =>
      type.integers selected value ++ rest.integers selected values

end

theorem inInt64_toInt (n : Int64) : InInt64 n.toInt :=
  ⟨n.le_toInt, n.toInt_lt⟩

mutual

theorem GoType.toAny_encode : ∀ (type : GoType) (value : type.Value printer),
    ((type.encode value).map decodeText).toAny printer = some (type.anyOf value)
  | .bool, value => by rw [GoType.encode, Json.map, Json.toAny, GoType.anyOf]
  | .integer _, value => by
      rw [GoType.encode, Json.map, Json.toAny,
        printer.reprint_ofInt_of_inInt64 (inInt64_toInt value), GoType.anyOf]
      rfl
  | .float64, value => by
      rw [GoType.encode, Json.map, Json.toAny, value.2, GoType.anyOf]
      rfl
  | .string, value => by rw [GoType.encode, Json.map, Json.toAny, GoType.anyOf]
  | .slice _, none => by rw [GoType.encode, Json.map, Json.toAny, GoType.anyOf]
  | .slice element, some values => by
      have helements : Json.toAnyElements printer
          ((values.map element.encode).map (Json.map decodeText)) =
            some (values.map element.anyOf) := by
        rw [List.map_map]
        exact Json.toAnyElements_map fun value _ =>
          element.toAny_encode value
      rw [GoType.encode, Json.map, Json.mapElements_eq_map, Json.toAny, helements,
        GoType.anyOf]
      rfl
  | .struct fields, values => by
      rw [GoType.encode, Json.map, Json.toAny, fields.toAny_encode values, GoType.anyOf]
      rfl

theorem GoFields.toAny_encode :
    ∀ (fields : GoFields) (values : fields.Values printer),
      Json.toAnyMembers printer
        (Json.mapMembers decodeText (fields.encode values)) =
          some (fields.anyOf values)
  | .nil, _ => by rw [GoFields.encode, Json.mapMembers, Json.toAnyMembers, GoFields.anyOf]
  | .cons name omitEmpty type rest, (value, values) => by
      rw [GoFields.encode, GoFields.anyOf]
      split_ifs
      · exact rest.toAny_encode values
      · rw [Json.mapMembers, Json.toAnyMembers, type.toAny_encode value,
          rest.toAny_encode values, decodeText_utf8]
        rfl

end

/-! ### The members of an encoded struct -/

theorem mem_names_of_mem_anyOf {entry : Bytes × Json Bytes} :
    ∀ {fields : GoFields} {values : fields.Values printer},
      entry ∈ fields.anyOf values → ∃ name ∈ fields.names, entry.1 = utf8 name
  | .nil, _, hentry => by
      rw [GoFields.anyOf] at hentry
      cases hentry
  | .cons name omitEmpty type rest, (value, values), hentry => by
      have hrest : entry ∈ rest.anyOf values →
          ∃ other ∈ (GoFields.cons name omitEmpty type rest).names,
            entry.1 = utf8 other := by
        intro hlater
        obtain ⟨other, hother, hsame⟩ := mem_names_of_mem_anyOf hlater
        exact ⟨other, List.mem_cons_of_mem name hother, hsame⟩
      rw [GoFields.anyOf] at hentry
      split_ifs at hentry
      · exact hrest hentry
      · rcases List.mem_cons.mp hentry with rfl | hlater
        · exact ⟨name, List.mem_cons_self, rfl⟩
        · exact hrest hlater

theorem utf8_injective : Function.Injective utf8 :=
  Function.LeftInverse.injective decodeText_utf8

theorem nodup_keys_anyOf : ∀ {fields : GoFields} (values : fields.Values printer),
    fields.names.Nodup → ((fields.anyOf values).map Prod.fst).Nodup
  | .nil, _, _ => by
      rw [GoFields.anyOf]
      exact List.nodup_nil
  | .cons name omitEmpty type rest, (value, values), hnames => by
      rw [GoFields.names, List.nodup_cons] at hnames
      have hrest := nodup_keys_anyOf values hnames.2
      rw [GoFields.anyOf]
      split_ifs
      · exact hrest
      · rw [List.map_cons, List.nodup_cons]
        refine ⟨?_, hrest⟩
        intro hmem
        obtain ⟨entry, hentry, hsame⟩ := List.mem_map.mp hmem
        obtain ⟨other, hother, hkey⟩ := mem_names_of_mem_anyOf hentry
        rw [utf8_injective (hkey.symm.trans hsame)] at hother
        exact hnames.1 hother

/-- The values of the entries for a field, as they are read again. -/
def valuesFor (name : List Char) (entries : List (Bytes × Json Bytes)) :
    List (Json (List Char)) :=
  (entries.filter fun entry => entry.1 = utf8 name).map fun entry =>
    entry.2.map decodeText

theorem valuesFor_cons_self (name : List Char) (value : Json Bytes)
    (entries : List (Bytes × Json Bytes)) :
    valuesFor name ((utf8 name, value) :: entries) =
      value.map decodeText :: valuesFor name entries := by
  unfold valuesFor
  rw [List.filter_cons_of_pos (by simp), List.map_cons]

theorem valuesFor_cons_of_ne {name other : List Char} (hne : other ≠ name)
    (value : Json Bytes) (entries : List (Bytes × Json Bytes)) :
    valuesFor name ((utf8 other, value) :: entries) = valuesFor name entries := by
  unfold valuesFor
  rw [List.filter_cons_of_neg]
  simpa using utf8_injective.ne hne

theorem valuesFor_eq_nil {name : List Char} {fields : GoFields}
    (values : fields.Values printer) (hname : name ∉ fields.names) :
    valuesFor name (fields.anyOf values) = [] := by
  unfold valuesFor
  rw [List.map_eq_nil_iff, List.filter_eq_nil_iff]
  intro entry hentry hsame
  obtain ⟨other, hother, hkey⟩ := mem_names_of_mem_anyOf hentry
  rw [decide_eq_true_eq, hkey] at hsame
  rw [utf8_injective hsame] at hother
  exact hname hother

/-- Entries with different keys have one value for a field in any order. -/
theorem valuesFor_perm {name : List Char}
    {entries sorted : List (Bytes × Json Bytes)}
    (hkeys : (entries.map Prod.fst).Nodup) (hperm : sorted.Perm entries) :
    valuesFor name sorted = valuesFor name entries := by
  have hfiltered := hperm.filter fun entry => decide (entry.1 = utf8 name)
  unfold valuesFor
  congr 1
  cases hentries : entries.filter fun entry => decide (entry.1 = utf8 name) with
  | nil =>
      rw [hentries] at hfiltered
      exact hfiltered.eq_nil
  | cons first later =>
      have hnone : later = [] := by
        have hnodup :=
          ((List.filter_sublist (p := fun entry => decide (entry.1 = utf8 name))
            (l := entries)).map Prod.fst).nodup hkeys
        have hmem : ∀ entry ∈ first :: later, entry.1 = utf8 name := by
          intro entry hentry
          rw [← hentries] at hentry
          simpa using (List.mem_filter.mp hentry).2
        rw [hentries, List.map_cons, List.nodup_cons] at hnodup
        rw [List.eq_nil_iff_forall_not_mem]
        intro entry hentry
        refine hnodup.1 (List.mem_map.mpr ⟨entry, hentry, ?_⟩)
        rw [hmem entry (List.mem_cons_of_mem first hentry),
          hmem first List.mem_cons_self]
      rw [hentries, hnone] at hfiltered
      rw [hnone]
      exact List.perm_singleton.mp hfiltered

theorem resolveKey_of_mem {names : List (List Char)} {key : List Char}
    (hkey : key ∈ names) : resolveKey names key = some key :=
  if_pos hkey

/-- A key that is the name of a field stands for this field only. -/
theorem memberValues_mapMembers {names : List (List Char)} (name : List Char)
    {entries : List (Bytes × Json Bytes)}
    (hentries : ∀ entry ∈ entries, ∃ name ∈ names, entry.1 = utf8 name) :
    memberValues names name (Json.mapMembers decodeText entries) =
      valuesFor name entries := by
  unfold memberValues valuesFor
  rw [Json.mapMembers_eq_map, List.filter_map, List.map_map]
  congr 1
  apply List.filter_congr
  intro entry hentry
  obtain ⟨other, hother, hkey⟩ := hentries entry hentry
  rw [Function.comp_apply, Prod.map_fst, hkey, decodeText_utf8,
    resolveKey_of_mem hother, decide_eq_decide, Option.some.injEq,
    utf8_injective.eq_iff]

theorem memberValues_anyOf {fields : GoFields} (values : fields.Values printer)
    (hnames : fields.names.Nodup) (name : List Char) :
    memberValues fields.names name (Json.mapMembers decodeText
        (SortedAssoc.assignAll [] (fields.anyOf values))) =
      valuesFor name (fields.anyOf values) := by
  have hkeys := nodup_keys_anyOf values hnames
  have hperm := SortedAssoc.perm_assignAll_nil hkeys
  rw [memberValues_mapMembers name, valuesFor_perm hkeys hperm]
  intro entry hentry
  exact mem_names_of_mem_anyOf (hperm.mem_iff.mp hentry)

/-! ### Decoding again -/

mutual

theorem GoType.decodeInto_anyOf : ∀ (type : GoType) (value : type.Value printer),
    type.Distinct →
      type.decodeInto (type.zero printer) ((type.anyOf value).map decodeText) =
        type.carry value
  | .bool, value, _ => by
      rw [GoType.anyOf, Json.map, GoType.decodeInto, GoType.carry]
  | .integer _, value, _ => by
      rw [GoType.anyOf, Json.map, GoType.decodeInto, GoType.carry, toInt64?_ofInt,
        FloatPrinter.carryInt64]
      split_ifs <;> rfl
  | .float64, value, _ => by
      rw [GoType.anyOf, Json.map, GoType.decodeInto, GoType.carry,
        printer.toFloat_val]
  | .string, value, _ => by
      rw [GoType.anyOf, Json.map, GoType.decodeInto, GoType.carry,
        Json.stringInto, decodeText_utf8]
  | .slice _, none, _ => by
      rw [GoType.anyOf, Json.map, GoType.decodeInto, GoType.carry]
  | .slice element, some values, hdistinct => by
      rw [GoType.Distinct] at hdistinct
      rw [GoType.anyOf, Json.map, GoType.decodeInto, GoType.carry,
        Json.mapElements_eq_map, List.map_map, List.mapM_map]
      congr 2
      funext value
      exact element.decodeInto_anyOf value hdistinct
  | .struct fields, values, hdistinct => by
      rw [GoType.Distinct] at hdistinct
      rw [GoType.anyOf, Json.map, GoType.decodeInto, GoType.carry, GoType.zero]
      exact fields.decodeInto_anyOf values hdistinct.2 hdistinct.1
        fun name _ => memberValues_anyOf values hdistinct.1 name

theorem GoFields.decodeInto_anyOf :
    ∀ (fields : GoFields) (values : fields.Values printer)
      {names : List (List Char)}
      {members : List (List Char × Json (List Char))},
      fields.DistinctTypes → fields.names.Nodup →
      (∀ name ∈ fields.names, memberValues names name members =
        valuesFor name (fields.anyOf values)) →
      fields.decodeInto names members (fields.zeros printer) =
        fields.carry values
  | .nil, _, _, _, _, _, _ => by rw [GoFields.decodeInto, GoFields.carry]
  | .cons name omitEmpty type rest, (value, values), names, members,
      hdistinct, hnames, hmembers => by
      rw [GoFields.DistinctTypes] at hdistinct
      rw [GoFields.names, List.nodup_cons] at hnames
      have hother : ∀ other ∈ rest.names, memberValues names other members =
          valuesFor other (rest.anyOf values) := by
        intro other hother
        rw [hmembers other (List.mem_cons_of_mem name hother), GoFields.anyOf]
        split_ifs
        · rfl
        · apply valuesFor_cons_of_ne
          rintro rfl
          exact hnames.1 hother
      have hown := hmembers name List.mem_cons_self
      have hrest :=
        rest.decodeInto_anyOf values hdistinct.2 hnames.2 hother
      rw [GoFields.anyOf] at hown
      rw [GoFields.zeros, GoFields.decodeInto, GoFields.carry, hown, hrest,
        unlessOmitted]
      split_ifs with hempty
      · rw [valuesFor_eq_nil values hnames.1]
        rfl
      · rw [valuesFor_cons_self, valuesFor_eq_nil values hnames.1,
          List.foldlM_cons, type.decodeInto_anyOf value hdistinct.1]
        simp only [List.foldlM_nil, bind_pure]

end

/-! ### The integers that come back -/

theorem integers_of_isEmpty {type : GoType} {value : type.Value printer}
    (hempty : type.isEmpty value = true) (selected : IntegerKind → Bool) :
    type.integers selected value = type.integers selected (type.zero printer) ∧
      ∀ n ∈ type.integers selected value, n = 0 := by
  cases type with
  | bool | float64 | string => simp [GoType.integers]
  | integer kind =>
      have hzero : value = 0 := by simpa [GoType.isEmpty] using hempty
      subst hzero
      refine ⟨rfl, ?_⟩
      rw [GoType.integers]
      split_ifs <;> simp
  | slice element =>
      have hnil : value.getD [] = [] := by
        simpa [GoType.isEmpty] using hempty
      rw [GoType.integers, GoType.integers, hnil]
      exact ⟨rfl, by simp⟩
  | struct fields => cases hempty

theorem carry_toInt_zero : printer.carry (0 : Int64).toInt = 0 :=
  printer.carry_eq_self_of_lt (by decide)

mutual

theorem GoType.isSome_carry_iff : ∀ (type : GoType) (value : type.Value printer),
    (type.carry value).isSome = true ↔
      ∀ n ∈ type.integers (fun _ => true) value, InInt64 (printer.carry n.toInt)
  | .bool, value | .float64, value | .string, value => by
      rw [GoType.carry, GoType.integers]
      simp
  | .integer _, value => by
      rw [GoType.carry, GoType.integers, FloatPrinter.carryInt64]
      split_ifs <;> simp_all
  | .slice _, none => by
      rw [GoType.carry, GoType.integers]
      simp
  | .slice element, some values => by
      rw [GoType.carry, GoType.integers, Option.isSome_map, isSome_mapM_iff,
        Option.getD_some]
      simp only [List.mem_flatMap, element.isSome_carry_iff]
      constructor
      · rintro hall n ⟨value, hvalue, hn⟩
        exact hall value hvalue n hn
      · intro hall value hvalue n hn
        exact hall n ⟨value, hvalue, hn⟩
  | .struct fields, values => by
      rw [GoType.carry, GoType.integers]
      exact fields.isSome_carry_iff values

theorem GoFields.isSome_carry_iff :
    ∀ (fields : GoFields) (values : fields.Values printer),
      (fields.carry values).isSome = true ↔
        ∀ n ∈ fields.integers (fun _ => true) values,
          InInt64 (printer.carry n.toInt)
  | .nil, _ => by
      rw [GoFields.carry, GoFields.integers]
      simp
  | .cons name omitEmpty type rest, (value, values) => by
      have hfirst : (unlessOmitted (omitEmpty && type.isEmpty value)
          (type.zero printer) (type.carry value)).isSome = true ↔
            ∀ n ∈ type.integers (fun _ => true) value,
              InInt64 (printer.carry n.toInt) := by
        unfold unlessOmitted
        split_ifs with hempty
        · rw [Bool.and_eq_true] at hempty
          refine ⟨fun _ n hn => ?_, fun _ => rfl⟩
          rw [(integers_of_isEmpty hempty.2 _).2 n hn, carry_toInt_zero]
          decide
        · exact type.isSome_carry_iff value
      rw [GoFields.carry, GoFields.integers, List.forall_mem_append, ← hfirst,
        ← rest.isSome_carry_iff values]
      cases unlessOmitted (omitEmpty && type.isEmpty value)
        (type.zero printer) (type.carry value) <;>
        cases rest.carry values <;> simp

end

mutual

theorem GoType.integers_of_carry (selected : IntegerKind → Bool) :
    ∀ (type : GoType) (value received : type.Value printer),
      type.carry value = some received →
      type.integers selected received = (type.integers selected value).map
        fun n => Int64.ofInt (printer.carry n.toInt)
  | .bool, _, _, _ | .float64, _, _, _ | .string, _, _, _ => by
      rw [GoType.integers, GoType.integers, List.map_nil]
  | .integer _, value, received, hreceived => by
      rw [GoType.carry, FloatPrinter.carryInt64] at hreceived
      split_ifs at hreceived
      cases hreceived
      rw [GoType.integers, GoType.integers]
      split_ifs <;> rfl
  | .slice _, none, received, hreceived => by
      rw [GoType.carry] at hreceived
      cases hreceived
      rfl
  | .slice element, some values, received, hreceived => by
      rw [GoType.carry, Option.map_eq_some_iff] at hreceived
      obtain ⟨results, hresults, rfl⟩ := hreceived
      rw [GoType.integers, GoType.integers, Option.getD_some, Option.getD_some]
      exact flatMap_of_mapM (element.integers_of_carry selected) hresults
  | .struct fields, values, received, hreceived => by
      rw [GoType.carry] at hreceived
      rw [GoType.integers, GoType.integers]
      exact fields.integers_of_carry selected values received hreceived

theorem GoFields.integers_of_carry (selected : IntegerKind → Bool) :
    ∀ (fields : GoFields) (values received : fields.Values printer),
      fields.carry values = some received →
      fields.integers selected received = (fields.integers selected values).map
        fun n => Int64.ofInt (printer.carry n.toInt)
  | .nil, _, _, _ => rfl
  | .cons name omitEmpty type rest, (value, values), received, hreceived => by
      rw [GoFields.carry] at hreceived
      obtain ⟨first, hfirst, later, hlater, rfl⟩ := both_eq_some_iff.mp hreceived
      have hown : type.integers selected first =
          (type.integers selected value).map
            fun n => Int64.ofInt (printer.carry n.toInt) := by
        unfold unlessOmitted at hfirst
        split_ifs at hfirst with hempty
        · rw [Bool.and_eq_true] at hempty
          obtain ⟨hsame, hzero⟩ := integers_of_isEmpty hempty.2 selected
          cases hfirst
          rw [← hsame, List.map_congr_left (g := id), List.map_id]
          intro n hn
          rw [hzero n hn, carry_toInt_zero]
          rfl
        · exact type.integers_of_carry selected value first hfirst
      rw [GoFields.integers, GoFields.integers, List.map_append, hown,
        rest.integers_of_carry selected values later hlater]

end

mutual

theorem GoType.mem_integers_true {selected : IntegerKind → Bool} {n : Int64} :
    ∀ (type : GoType) (value : type.Value printer),
      n ∈ type.integers selected value → n ∈ type.integers (fun _ => true) value
  | .bool, _, hn | .float64, _, hn | .string, _, hn => hn
  | .integer _, value, hn => by
      rw [GoType.integers] at hn ⊢
      split_ifs at hn
      · exact hn
      · cases hn
  | .slice element, value, hn => by
      rw [GoType.integers, List.mem_flatMap] at hn ⊢
      obtain ⟨found, hfound, hn⟩ := hn
      exact ⟨found, hfound, element.mem_integers_true found hn⟩
  | .struct fields, values, hn => by
      rw [GoType.integers] at hn ⊢
      exact fields.mem_integers_true values hn

theorem GoFields.mem_integers_true {selected : IntegerKind → Bool} {n : Int64} :
    ∀ (fields : GoFields) (values : fields.Values printer),
      n ∈ fields.integers selected values →
        n ∈ fields.integers (fun _ => true) values
  | .nil, _, hn => hn
  | .cons _ _ type rest, (value, values), hn => by
      rw [GoFields.integers, List.mem_append] at hn ⊢
      exact hn.imp (type.mem_integers_true value)
        (rest.mem_integers_true values)

end

/-- Integers come back as they are exactly if their floats are printed as they
are, provided that every integer can still be decoded. -/
theorem GoType.carry_keeps_integers_iff (selected : IntegerKind → Bool)
    (type : GoType) (value : type.Value printer) :
    (∃ received, type.carry value = some received ∧
        type.integers selected received = type.integers selected value) ↔
      (∀ n ∈ type.integers (fun _ => true) value,
        InInt64 (printer.carry n.toInt)) ∧
      ∀ n ∈ type.integers selected value,
        printer.carry n.toInt = n.toInt := by
  have hcarried : ∀ n : Int64, InInt64 (printer.carry n.toInt) →
      (Int64.ofInt (printer.carry n.toInt) = n ↔
        printer.carry n.toInt = n.toInt) := by
    intro n hrange
    rw [← Int64.toInt_inj, Int64.toInt_ofInt_of_le hrange.1 hrange.2]
  rw [← type.isSome_carry_iff value, Option.isSome_iff_exists]
  constructor
  · rintro ⟨received, hreceived, hsame⟩
    refine ⟨⟨received, hreceived⟩, ?_⟩
    have hrange := (type.isSome_carry_iff value).mp
      (Option.isSome_iff_exists.mpr ⟨received, hreceived⟩)
    rw [type.integers_of_carry selected value received hreceived] at hsame
    intro n hn
    rw [← hcarried n (hrange n (type.mem_integers_true value hn))]
    exact List.map_inj_left.mp (hsame.trans (List.map_id _).symm) n hn
  · rintro ⟨⟨received, hreceived⟩, hkept⟩
    refine ⟨received, hreceived, ?_⟩
    rw [type.integers_of_carry selected value received hreceived]
    refine (List.map_congr_left fun n hn => ?_).trans (List.map_id _)
    rw [hkept n hn, Int64.ofInt_toInt]
    rfl

end

end GoP2P
