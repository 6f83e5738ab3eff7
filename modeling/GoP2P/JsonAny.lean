import GoP2P.JsonNumbers
import GoP2P.SortedAssoc

/-!
# JSON without a type

A value that is decoded into an `any` is given by the tree that is encoded for
it: every number is a float, every string UTF-8, and an object a map, whose
keys are encoded in order.  Decoding what is encoded for such a value gives the
value again.
-/

namespace GoP2P

/-! ## Computations that may have no value -/

section

variable {α β γ δ : Type} {f : α → Option β}

theorem both_eq_some_iff {first : Option α} {later : Option β} {pair : α → β → γ}
    {result : γ} :
    (do
        let a ← first
        let b ← later
        pure (pair a b)) = some result ↔
      ∃ a, first = some a ∧ ∃ b, later = some b ∧ pair a b = result := by
  simp [Option.bind_eq_some_iff]

theorem mapM_eq_some_map {g : α → β} {values : List α}
    (hvalues : ∀ value ∈ values, f value = some (g value)) :
    values.mapM f = some (values.map g) := by
  induction values with
  | nil => rfl
  | cons value values ih =>
      obtain ⟨hfirst, hlater⟩ := List.forall_mem_cons.mp hvalues
      rw [List.mapM_cons, hfirst, ih hlater]
      rfl

theorem mem_of_mapM {values : List α} {results : List β}
    (hresults : values.mapM f = some results) :
    ∀ result ∈ results, ∃ value ∈ values, f value = some result := by
  induction values generalizing results with
  | nil =>
      rw [List.mapM_nil] at hresults
      cases hresults
      simp
  | cons value values ih =>
      rw [List.mapM_cons] at hresults
      obtain ⟨first, hfirst, later, hlater, rfl⟩ := both_eq_some_iff.mp hresults
      refine List.forall_mem_cons.mpr ⟨⟨value, by simp, hfirst⟩, ?_⟩
      intro result hresult
      obtain ⟨source, hsource, hsame⟩ := ih hlater result hresult
      exact ⟨source, List.mem_cons_of_mem value hsource, hsame⟩

theorem isSome_mapM_iff {values : List α} :
    (values.mapM f).isSome = true ↔ ∀ value ∈ values, (f value).isSome = true := by
  induction values with
  | nil => simp
  | cons value values ih =>
      rw [List.mapM_cons, List.forall_mem_cons, ← ih]
      cases f value <;> cases values.mapM f <;> simp

theorem flatMap_of_mapM {g : α → List γ} {g' : β → List δ} {h : γ → δ}
    (hstep : ∀ value result, f value = some result →
      g' result = (g value).map h)
    {values : List α} {results : List β} (hresults : values.mapM f = some results) :
    results.flatMap g' = (values.flatMap g).map h := by
  induction values generalizing results with
  | nil =>
      rw [List.mapM_nil] at hresults
      cases hresults
      rfl
  | cons value values ih =>
      rw [List.mapM_cons] at hresults
      obtain ⟨first, hfirst, later, hlater, rfl⟩ := both_eq_some_iff.mp hresults
      rw [List.flatMap_cons, List.flatMap_cons, List.map_append,
        hstep value first hfirst, ih hlater]

end

namespace Json

variable {σ τ : Type*}

/-! ## Trees -/

theorem mapElements_eq_map (read : σ → τ) (elements : List (Json σ)) :
    mapElements read elements = elements.map (map read) := by
  induction elements with
  | nil => rw [mapElements, List.map_nil]
  | cons element elements ih => rw [mapElements, ih, List.map_cons]

theorem mapMembers_eq_map (read : σ → τ) (members : List (σ × Json σ)) :
    mapMembers read members = members.map (Prod.map read (map read)) := by
  induction members with
  | nil => rw [mapMembers, List.map_nil]
  | cons member members ih => rw [mapMembers, ih, List.map_cons, Prod.map]

theorem all_map (good : τ → Bool) (read : σ → τ) (value : Json σ) :
    (value.map read).all good = true ↔
      value.all (fun s => good (read s)) = true := by
  induction value using treeInduction with
  | null | bool | number => simp only [map, all]
  | string => rw [map, all, all]
  | array elements ih =>
      rw [map, all, all, mapElements_eq_map, allElements_iff, allElements_iff,
        List.forall_mem_map]
      exact forall₂_congr ih
  | object members ih =>
      rw [map, all, all, mapMembers_eq_map, allMembers_iff, allMembers_iff,
        List.forall_mem_map]
      exact forall₂_congr fun member hmember =>
        and_congr Iff.rfl (ih member hmember)

/-! ## Decoding into an `any` -/

section

variable (printer : FloatPrinter)

mutual

def toAny : Json (List Char) → Option (Json Bytes)
  | .null => some .null
  | .bool value => some (.bool value)
  | .number literal => (printer.reprint literal).map .number
  | .string value => some (.string (utf8 value))
  | .array elements => (toAnyElements elements).map .array
  | .object members =>
      (toAnyMembers members).map fun members =>
        .object (SortedAssoc.assignAll [] members)

def toAnyElements : List (Json (List Char)) → Option (List (Json Bytes))
  | [] => some []
  | element :: elements => do
      let element ← element.toAny
      let elements ← toAnyElements elements
      pure (element :: elements)

def toAnyMembers :
    List (List Char × Json (List Char)) → Option (List (Bytes × Json Bytes))
  | [] => some []
  | (key, value) :: members => do
      let value ← value.toAny
      let members ← toAnyMembers members
      pure ((utf8 key, value) :: members)

end

/-- The value is the value of an `any`: it decodes to itself. -/
def Canonical (value : Json Bytes) : Prop :=
  (value.map decodeText).toAny printer = some value

variable {printer}

theorem toAnyElements_eq_mapM (elements : List (Json (List Char))) :
    toAnyElements printer elements = elements.mapM (toAny printer) := by
  induction elements with
  | nil => rw [toAnyElements, List.mapM_nil, Option.pure_def]
  | cons element elements ih => rw [toAnyElements, List.mapM_cons, ih]

theorem toAnyMembers_eq_mapM (members : List (List Char × Json (List Char))) :
    toAnyMembers printer members = members.mapM fun member =>
      (member.2.toAny printer).map (Prod.mk (utf8 member.1)) := by
  induction members with
  | nil => rw [toAnyMembers, List.mapM_nil, Option.pure_def]
  | cons member members ih =>
      rw [toAnyMembers, List.mapM_cons, ih]
      cases member.2.toAny printer <;> rfl

theorem toAnyElements_map {ι : Type} {read : ι → Json (List Char)}
    {value : ι → Json Bytes} {elements : List ι}
    (hread : ∀ element ∈ elements,
      (read element).toAny printer = some (value element)) :
    toAnyElements printer (elements.map read) = some (elements.map value) := by
  rw [toAnyElements_eq_mapM, List.mapM_map]
  exact mapM_eq_some_map hread

theorem toAnyMembers_map {members : List (Bytes × Json Bytes)}
    (hkey : ∀ member ∈ members, utf8 (decodeText member.1) = member.1)
    (hvalue : ∀ member ∈ members, Canonical printer member.2) :
    toAnyMembers printer (mapMembers decodeText members) = some members := by
  rw [toAnyMembers_eq_mapM, mapMembers_eq_map, List.mapM_map]
  refine (mapM_eq_some_map (g := id) ?_).trans (by rw [List.map_id])
  intro member hmember
  rw [Function.comp_apply, Prod.map_fst, Prod.map_snd, hvalue member hmember,
    hkey member hmember]
  rfl

theorem mem_of_toAnyElements {elements : List (Json (List Char))}
    {decoded : List (Json Bytes)}
    (hdecoded : toAnyElements printer elements = some decoded) :
    ∀ value ∈ decoded, ∃ element ∈ elements,
      element.toAny printer = some value := by
  rw [toAnyElements_eq_mapM] at hdecoded
  exact mem_of_mapM hdecoded

theorem mem_of_toAnyMembers {members : List (List Char × Json (List Char))}
    {decoded : List (Bytes × Json Bytes)}
    (hdecoded : toAnyMembers printer members = some decoded) :
    ∀ entry ∈ decoded, ∃ member ∈ members,
      utf8 member.1 = entry.1 ∧ member.2.toAny printer = some entry.2 := by
  rw [toAnyMembers_eq_mapM] at hdecoded
  intro entry hentry
  obtain ⟨member, hmember, hsame⟩ := mem_of_mapM hdecoded entry hentry
  obtain ⟨value, hvalue, rfl⟩ := Option.map_eq_some_iff.mp hsame
  exact ⟨member, hmember, rfl, hvalue⟩

/-- Every entry of the map that an object is decoded into is a member of the
object. -/
theorem mem_of_toAny_object {members : List (List Char × Json (List Char))}
    {value : Json Bytes}
    (hvalue : (Json.object members).toAny printer = some value) :
    ∃ entries, SortedAssoc.Sorted entries ∧ value = .object entries ∧
      ∀ entry ∈ entries, ∃ member ∈ members,
        utf8 member.1 = entry.1 ∧ member.2.toAny printer = some entry.2 := by
  rw [toAny, Option.map_eq_some_iff] at hvalue
  obtain ⟨decoded, hdecoded, rfl⟩ := hvalue
  refine ⟨_, SortedAssoc.sorted_assignAll decoded List.Pairwise.nil, rfl, ?_⟩
  intro entry hentry
  rcases SortedAssoc.mem_assignAll hentry with hnil | hdecodedEntry
  · cases hnil
  · exact mem_of_toAnyMembers hdecoded entry hdecodedEntry

theorem canonical_of_toAny {json : Json (List Char)} {value : Json Bytes}
    (hvalue : json.toAny printer = some value) : Canonical printer value := by
  unfold Canonical
  induction json using treeInduction generalizing value with
  | null | bool =>
      rw [toAny] at hvalue
      cases hvalue
      rw [map, toAny]
  | number literal =>
      rw [toAny, Option.map_eq_some_iff] at hvalue
      obtain ⟨printed, hprinted, rfl⟩ := hvalue
      rw [map, toAny, printer.reprint_reprint literal printed hprinted]
      rfl
  | string content =>
      rw [toAny] at hvalue
      cases hvalue
      rw [map, toAny, decodeText_utf8]
  | array elements ih =>
      rw [toAny, Option.map_eq_some_iff] at hvalue
      obtain ⟨decoded, hdecoded, rfl⟩ := hvalue
      have hagain : toAnyElements printer (decoded.map (map decodeText)) =
          some (decoded.map id) := by
        apply toAnyElements_map
        intro element helement
        obtain ⟨source, hsource, hsame⟩ :=
          mem_of_toAnyElements hdecoded element helement
        exact ih source hsource hsame
      rw [map, toAny, mapElements_eq_map, hagain, List.map_id]
      rfl
  | object members ih =>
      obtain ⟨entries, hsorted, rfl, hentries⟩ := mem_of_toAny_object hvalue
      have hagain :
          toAnyMembers printer (mapMembers decodeText entries) = some entries := by
        apply toAnyMembers_map
        · intro entry hentry
          obtain ⟨source, -, hkey, -⟩ := hentries entry hentry
          rw [← hkey, decodeText_utf8]
        · intro entry hentry
          obtain ⟨source, hsource, -, hsame⟩ := hentries entry hentry
          exact ih source hsource hsame
      have hsame : SortedAssoc.assignAll [] entries = entries :=
        SortedAssoc.assignAll_of_sorted hsorted
      rw [map, toAny, hagain, Option.map_some, hsame]

/-- A condition on all strings and keys of a text holds for the value. -/
theorem all_of_toAny {good : List Char → Bool} {json : Json (List Char)}
    {value : Json Bytes} (hgood : json.all good = true)
    (hvalue : json.toAny printer = some value) :
    value.all (fun s => good (decodeText s)) = true := by
  induction json using treeInduction generalizing value with
  | null | bool =>
      rw [toAny] at hvalue
      cases hvalue
      rw [all]
  | number literal =>
      rw [toAny, Option.map_eq_some_iff] at hvalue
      obtain ⟨printed, -, rfl⟩ := hvalue
      rw [all]
  | string content =>
      rw [toAny] at hvalue
      cases hvalue
      rw [all] at hgood
      rw [all, decodeText_utf8]
      exact hgood
  | array elements ih =>
      rw [toAny, Option.map_eq_some_iff] at hvalue
      obtain ⟨decoded, hdecoded, rfl⟩ := hvalue
      rw [all, allElements_iff] at hgood
      rw [all, allElements_iff]
      intro element helement
      obtain ⟨source, hsource, hsame⟩ :=
        mem_of_toAnyElements hdecoded element helement
      exact ih source hsource (hgood source hsource) hsame
  | object members ih =>
      obtain ⟨entries, -, rfl, hentries⟩ := mem_of_toAny_object hvalue
      rw [all, allMembers_iff] at hgood
      rw [all, allMembers_iff]
      intro entry hentry
      obtain ⟨source, hsource, hkey, hsame⟩ := hentries entry hentry
      obtain ⟨hgoodKey, hgoodValue⟩ := hgood source hsource
      rw [← hkey, decodeText_utf8]
      exact ⟨hgoodKey, ih source hsource hgoodValue hsame⟩

end

end Json

end GoP2P
