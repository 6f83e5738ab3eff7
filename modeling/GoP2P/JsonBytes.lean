import GoP2P.Base64
import GoP2P.JsonCarry

/-!
# Fields of structs in JSON

The members of an object are collected by the fields they stand for, and each
field is decoded from its own.  A byte slice is encoded as a string in base64,
and as null if it is nil; it is decoded from such a string, and also from an
array of numbers.
-/

namespace GoP2P

namespace Json

def encodeBytes : Option Bytes → Json Bytes
  | none => .null
  | some data => .string (utf8 (Base64.encode data))

/-- Decoding into a `uint8` that is zero. -/
def toByte : Json (List Char) → Option UInt8
  | .null => some 0
  | .number literal =>
      if isDigits literal.content then
        ((parseInt literal.content).filter (· < 256)).map
          fun n => UInt8.ofNat n.toNat
      else none
  | _ => none

/-- Decoding into a byte slice, whatever it was. -/
def bytesInto (_ : Option Bytes) : Json (List Char) → Option (Option Bytes)
  | .null => some none
  | .string content => (Base64.decode content).map some
  | .array elements => (elements.mapM toByte).map some
  | _ => none

theorem bytesInto_encodeBytes (old data : Option Bytes) :
    bytesInto old ((encodeBytes data).map decodeText) = some data := by
  cases data with
  | none => rw [encodeBytes, map, bytesInto]
  | some data =>
      rw [encodeBytes, map, bytesInto, decodeText_utf8, Base64.decode_encode]
      rfl

end Json

/-- A field of a struct with the given names, decoded from its members. -/
def fieldInto {α : Type} (names : List String)
    (decodeInto : α → Json (List Char) → Option α) (zero : α)
    (members : List (List Char × Json (List Char))) (name : String) : Option α :=
  (memberValues (names.map String.toList) name.toList members).foldlM
    decodeInto zero

section

variable {α : Type} {names : List String}
  {decodeInto : α → Json (List Char) → Option α} {zero : α}
  {members : List (List Char × Json (List Char))} {name : String}

/-- The members of an object, by the names of the fields. -/
def namedMembers (entries : List (String × Json Bytes)) :
    List (Bytes × Json Bytes) :=
  entries.map fun entry => (utf8 entry.1.toList, entry.2)

theorem valuesFor_namedMembers (entries : List (String × Json Bytes)) :
    valuesFor name.toList (namedMembers entries) =
      (entries.filter (·.1 = name)).map (·.2.map decodeText) := by
  unfold valuesFor namedMembers
  rw [List.filter_map, List.map_map]
  refine (congrArg _ (List.filter_congr ?_)).trans rfl
  intro entry _
  simp only [Function.comp_apply, utf8_injective.eq_iff, String.toList_inj]

theorem mem_names_of_mem_namedMembers {entries : List (String × Json Bytes)}
    (hnames : ∀ entry ∈ entries, entry.1 ∈ names) :
    ∀ member ∈ namedMembers entries,
      ∃ key ∈ names.map String.toList, member.1 = utf8 key := by
  intro member hmember
  obtain ⟨entry, hentry, rfl⟩ := List.mem_map.mp hmember
  exact ⟨entry.1.toList, List.mem_map_of_mem (hnames entry hentry), rfl⟩

theorem fieldInto_namedMembers {entries : List (String × Json Bytes)}
    (hnames : ∀ entry ∈ entries, entry.1 ∈ names) :
    fieldInto names decodeInto zero
        (Json.mapMembers decodeText (namedMembers entries)) name =
      ((entries.filter (·.1 = name)).map (·.2.map decodeText)).foldlM
        decodeInto zero := by
  rw [fieldInto, memberValues_mapMembers _ (mem_names_of_mem_namedMembers hnames),
    valuesFor_namedMembers]

/-- The members as a map has them, in the order of the keys. -/
def anyMembers (entries : List (String × Json Bytes)) :
    List (Bytes × Json Bytes) :=
  SortedAssoc.assignAll [] (namedMembers entries)

theorem nodup_keys_namedMembers {entries : List (String × Json Bytes)}
    (hnodup : (entries.map Prod.fst).Nodup) :
    ((namedMembers entries).map Prod.fst).Nodup := by
  have hkeys : (namedMembers entries).map Prod.fst =
      (entries.map Prod.fst).map fun name => utf8 name.toList := by
    rw [namedMembers, List.map_map, List.map_map]
    rfl
  rw [hkeys]
  exact hnodup.map (utf8_injective.comp fun _ _ => String.toList_inj.mp)

/-- The order of the members does not matter to a field. -/
theorem fieldInto_anyMembers {entries : List (String × Json Bytes)}
    (hnames : ∀ entry ∈ entries, entry.1 ∈ names)
    (hnodup : (entries.map Prod.fst).Nodup) :
    fieldInto names decodeInto zero
        (Json.mapMembers decodeText (anyMembers entries)) name =
      ((entries.filter (·.1 = name)).map (·.2.map decodeText)).foldlM
        decodeInto zero := by
  have hkeys := nodup_keys_namedMembers hnodup
  have hperm : (anyMembers entries).Perm (namedMembers entries) :=
    SortedAssoc.perm_assignAll_nil hkeys
  have hmembers : ∀ member ∈ anyMembers entries,
      ∃ key ∈ names.map String.toList, member.1 = utf8 key := fun member hmember =>
    mem_names_of_mem_namedMembers hnames member (hperm.mem_iff.mp hmember)
  rw [fieldInto, memberValues_mapMembers _ hmembers, valuesFor_perm hkeys hperm,
    valuesFor_namedMembers]

end

/-- A byte slice that is left out if it is empty. -/
def bytesEntry (name : String) (data : Bytes) : List (String × Json Bytes) :=
  if data = [] then [] else [(name, Json.encodeBytes (some data))]

theorem filter_bytesEntry (name other : String) (data : Bytes) :
    (bytesEntry other data).filter (·.1 = name) =
      if other = name then bytesEntry other data else [] := by
  unfold bytesEntry
  split_ifs <;> simp_all

theorem bytesInto_bytesEntry (name : String) (data : Bytes) :
    ∃ found, ((bytesEntry name data).map (·.2.map decodeText)).foldlM
      Json.bytesInto none = some found ∧ found.getD [] = data := by
  unfold bytesEntry
  split_ifs with hempty
  · exact ⟨none, rfl, hempty.symm⟩
  · refine ⟨some data, ?_, rfl⟩
    rw [List.map_singleton, List.foldlM_cons, Json.bytesInto_encodeBytes]
    rfl

section

variable {printer : FloatPrinter}

theorem Json.toAny_string_of_isUTF8 {content : Bytes} (hcontent : IsUTF8 content) :
    ((Json.string content).map decodeText).toAny printer =
      some (.string content) := by
  rw [Json.map, Json.toAny, hcontent]

theorem Json.toAny_encodeBytes (data : Bytes) :
    ((Json.encodeBytes (some data)).map decodeText).toAny printer =
      some (Json.encodeBytes (some data)) :=
  toAny_string_of_isUTF8 (isUTF8_utf8 _)

/-- An object that is decoded into an `any`, member by member. -/
theorem Json.toAny_namedMembers {entries carried : List (String × Json Bytes)}
    (hcarried : List.Forall₂ (fun entry after => entry.1 = after.1 ∧
      (entry.2.map decodeText).toAny printer = some after.2) entries carried) :
    ((Json.object (namedMembers entries)).map decodeText).toAny printer =
      some (.object (anyMembers carried)) := by
  have hmembers : toAnyMembers printer
      (mapMembers decodeText (namedMembers entries)) =
        some (namedMembers carried) := by
    induction hcarried with
    | nil => rfl
    | @cons entry after entries carried hentry _ ih =>
        change toAnyMembers printer ((decodeText (utf8 entry.1.toList),
          entry.2.map decodeText) ::
            mapMembers decodeText (namedMembers entries)) = _
        rw [toAnyMembers, hentry.2, ih, decodeText_utf8, hentry.1]
        rfl
  rw [Json.map, toAny, hmembers]
  rfl

end

end GoP2P
