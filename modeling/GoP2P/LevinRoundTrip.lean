import GoP2P.LevinEncoding

/-!
# Round trip and canonicalisation

A section built from the constructors has a canonical text, and so has every
section the decoder returns, no longer than the text it was read from.  Since
the encoder writes the canonical text and the decoder reads any, encoding then
decoding is the identity on built sections, and decoding then encoding
canonicalises.
-/

namespace GoP2P.Levin

open SortedAssoc

/-! ## Values built from the constructors -/

/-- Values as the constructors of the package make them.  The names of a
section are the keys of a map, kept in order; the bound on lengths is far above
what a slice or a map of the language can hold. -/
inductive Built : Value → Prop
  | uint64 (v : UInt64) : Built (uint64Val v)
  | uint32 (v : UInt32) : Built (uint32Val v)
  | uint16 (v : UInt16) : Built (uint16Val v)
  | uint8 (v : UInt8) : Built (uint8Val v)
  | int64 (v : Int64) : Built (int64Val v)
  | int32 (v : Int32) : Built (int32Val v)
  | int16 (v : Int16) : Built (int16Val v)
  | int8 (v : Int8) : Built (int8Val v)
  | bool (v : Bool) : Built (boolVal v)
  | double (bits : UInt64) : Built (doubleVal bits)
  | string (v : Bytes) (hlength : v.length < 2 ^ 62) : Built (stringVal v)
  | object (s : Section) (hsorted : Sorted s) (hlength : s.length < 2 ^ 62)
      (hnames : ∀ field ∈ s, field.1.length ≤ 255)
      (hvalues : ∀ field ∈ s, Built field.2) : Built (objectVal s)
  | uint64Array (vs : List UInt64) (hlength : vs.length < 2 ^ 62) :
      Built (uint64ArrayVal vs)
  | uint32Array (vs : List UInt32) (hlength : vs.length < 2 ^ 62) :
      Built (uint32ArrayVal vs)
  | stringArray (vs : List Bytes) (hlength : vs.length < 2 ^ 62)
      (hlengths : ∀ v ∈ vs, v.length < 2 ^ 62) : Built (stringArrayVal vs)
  | objectArray (vs : List Section) (hlength : vs.length < 2 ^ 62)
      (hvalues : ∀ s ∈ vs, Built (objectVal s)) : Built (objectArrayVal vs)

theorem exists_shortest {n : ℕ} (hn : n < 2 ^ 62) :
    ∃ count, VarintText true count n :=
  ⟨_, VarintText.shortest hn⟩

theorem fixed_text (kind : FixedKind) {n : ℕ} {value : Value}
    (hn : n < 256 ^ kind.width) (hvalue : kind.value n = value) :
    ∃ kind bytes, ValueText true kind bytes value := by
  refine ⟨.fixed kind, leBytes kind.width n, ?_⟩
  have htext : ValueText true (.fixed kind) (leBytes kind.width n)
      (kind.value (leNat (leBytes kind.width n))) :=
    .fixed kind _ (length_leBytes _ _)
  rwa [leNat_leBytes_of_lt hn, hvalue] at htext

theorem Built.exists_text {value : Value} (hbuilt : Built value) :
    ∃ kind bytes, ValueText true kind bytes value := by
  induction hbuilt with
  | uint64 v =>
      exact fixed_text .uint64 v.toNat_lt (by simp [FixedKind.value])
  | uint32 v =>
      exact fixed_text .uint32 v.toNat_lt (by simp [FixedKind.value])
  | uint16 v =>
      exact fixed_text .uint16 v.toNat_lt (by simp [FixedKind.value])
  | uint8 v =>
      exact fixed_text .uint8 v.toNat_lt (by simp [FixedKind.value])
  | int64 v =>
      exact fixed_text .int64 v.toUInt64.toNat_lt (by simp [FixedKind.value])
  | int32 v =>
      exact fixed_text .int32 v.toUInt32.toNat_lt (by simp [FixedKind.value])
  | int16 v =>
      exact fixed_text .int16 v.toUInt16.toNat_lt (by simp [FixedKind.value])
  | int8 v =>
      exact fixed_text .int8 v.toUInt8.toNat_lt (by simp [FixedKind.value])
  | double bits =>
      exact fixed_text .double bits.toNat_lt (by simp [FixedKind.value])
  | bool v =>
      cases v with
      | false => exact ⟨.bool, [0], .bool 0 (by simp)⟩
      | true => exact ⟨.bool, [1], .bool 1 (by simp)⟩
  | string v hlength =>
      obtain ⟨count, hcount⟩ := exists_shortest hlength
      exact ⟨_, _, .string count v hcount⟩
  | object s hsorted hlength hnames hvalues ih =>
      obtain ⟨entries, rfl, hentries⟩ : ∃ entries : List Entry,
          entries.map Entry.field = s ∧ ∀ entry ∈ entries,
            ValueText true entry.kind entry.body entry.value := by
        apply exists_map_eq
        intro field hfield
        obtain ⟨kind, bytes, htext⟩ := ih field hfield
        exact ⟨⟨field.1, kind, bytes, field.2⟩, htext, rfl⟩
      rw [List.length_map] at hlength
      obtain ⟨count, hcount⟩ := exists_shortest hlength
      refine ⟨.object, count ++ entries.flatMap Entry.text, ?_⟩
      have htext := ValueText.object count entries hcount
        (fun entry hentry => hnames _ (List.mem_map_of_mem hentry)) hentries
        (fun _ => hsorted)
      rwa [assignAll_of_sorted (by simpa using hsorted), List.nil_append]
        at htext
  | uint64Array vs hlength =>
      obtain ⟨count, hcount⟩ := exists_shortest hlength
      exact ⟨_, _, .uint64Array count vs hcount⟩
  | uint32Array vs hlength =>
      obtain ⟨count, hcount⟩ := exists_shortest hlength
      exact ⟨_, _, .uint32Array count vs hcount⟩
  | stringArray vs hlength hlengths =>
      obtain ⟨items, rfl, hitems⟩ : ∃ items : List (Bytes × Bytes),
          items.map Prod.snd = vs ∧ ∀ item ∈ items,
            VarintText true item.1 item.2.length := by
        apply exists_map_eq
        intro v hv
        obtain ⟨count, hcount⟩ := exists_shortest (hlengths v hv)
        exact ⟨(count, v), hcount, rfl⟩
      rw [List.length_map] at hlength
      obtain ⟨count, hcount⟩ := exists_shortest hlength
      exact ⟨_, _, .stringArray count items hcount hitems⟩
  | objectArray vs hlength hvalues ih =>
      obtain ⟨items, rfl, hitems⟩ : ∃ items : List (Bytes × Section),
          items.map Prod.snd = vs ∧ ∀ item ∈ items,
            ValueText true .object item.1 (objectVal item.2) := by
        apply exists_map_eq
        intro s hs
        obtain ⟨kind, bytes, htext⟩ := ih s hs
        have hkind : kind = .object :=
          Kind.tag_injective (htext.type_eq.symm.trans rfl)
        subst hkind
        exact ⟨(bytes, s), htext, rfl⟩
      rw [List.length_map] at hlength
      obtain ⟨count, hcount⟩ := exists_shortest hlength
      exact ⟨_, _, .objectArray count items hcount hitems⟩

/-! ## Shorter canonical texts -/

/-- The canonical entries of a section that was read from `entries`: of the
entries with one name the last is kept, in name order. -/
theorem exists_sorted_entries (entries : List Entry) :
    ∃ kept : List Entry, (∀ entry ∈ kept, entry ∈ entries) ∧
      Sorted (kept.map Entry.field) ∧
      kept.map Entry.field = assignAll [] (entries.map Entry.field) ∧
      kept.length ≤ entries.length ∧
      (kept.flatMap Entry.text).length ≤ (entries.flatMap Entry.text).length := by
  let keyed : List (Bytes × Entry) := entries.map fun entry => (entry.name, entry)
  let assigned := assignAll [] keyed
  have hmem : ∀ pair ∈ assigned, pair.2 ∈ entries ∧ pair.1 = pair.2.name := by
    intro pair hpair
    rcases mem_assignAll hpair with hnone | hkeyed
    · simp at hnone
    · obtain ⟨entry, hentry, rfl⟩ := List.mem_map.mp hkeyed
      exact ⟨hentry, rfl⟩
  have hfields : (assigned.map Prod.snd).map Entry.field =
      assigned.map (Prod.map id Entry.value) := by
    rw [List.map_map]
    apply List.map_congr_left
    intro pair hpair
    exact Prod.ext (hmem pair hpair).2.symm rfl
  have hassign : assigned.map (Prod.map id Entry.value) =
      assignAll [] (entries.map Entry.field) := by
    change (assignAll [] keyed).map _ = _
    rw [map_assignAll]
    change assignAll [] ((entries.map _).map _) = _
    rw [List.map_map]
    rfl
  refine ⟨assigned.map Prod.snd, ?_, ?_, hfields.trans hassign, ?_, ?_⟩
  · intro entry hentry
    obtain ⟨pair, hpair, rfl⟩ := List.mem_map.mp hentry
    exact (hmem pair hpair).1
  · rw [hfields, hassign]
    exact sorted_assignAll _ List.Pairwise.nil
  · have hlength := length_assignAll_le [] keyed
    simpa [assigned, keyed] using hlength
  · have hweight := weight_assignAll_le
      (fun pair : Bytes × Entry => pair.2.text.length) [] keyed
    simpa [assigned, keyed, List.length_flatMap, List.map_map,
      Function.comp_def] using hweight

theorem length_flatMap_le {α : Type} {f g : α → Bytes} {xs : List α}
    (hle : ∀ x ∈ xs, (f x).length ≤ (g x).length) :
    (xs.flatMap f).length ≤ (xs.flatMap g).length := by
  simp only [List.length_flatMap]
  exact List.sum_le_sum hle

/-- A section has a canonical text that is no longer, when its values do. -/
theorem exists_canonical_object {strict : Bool} {count : Bytes}
    {entries : List Entry} (hcount : VarintText strict count entries.length)
    (hnames : ∀ entry ∈ entries, entry.name.length ≤ 255)
    (hvalues : ∀ entry ∈ entries, ∃ bytes,
      ValueText true entry.kind bytes entry.value ∧
        bytes.length ≤ entry.body.length) :
    ∃ bytes, ValueText true .object bytes
        (objectVal (assignAll [] (entries.map Entry.field))) ∧
      bytes.length ≤ (count ++ entries.flatMap Entry.text).length := by
  obtain ⟨kept, hkept, hsorted, hfields, hlength, hsize⟩ :=
    exists_sorted_entries entries
  choose! body hbody using hvalues
  let shorten (entry : Entry) : Entry := { entry with body := body entry }
  have hshorter : ((kept.map shorten).flatMap Entry.text).length ≤
      (kept.flatMap Entry.text).length := by
    rw [List.flatMap_map]
    apply length_flatMap_le
    intro entry hentry
    have hle := (hbody entry (hkept entry hentry)).2
    simp only [Entry.text, shorten, List.length_cons, List.length_append]
    omega
  have hsame : (kept.map shorten).map Entry.field =
      kept.map Entry.field := by
    rw [List.map_map]
    rfl
  obtain ⟨count', hcount', hcountLength⟩ := hcount.exists_shorter hlength
  refine ⟨count' ++ (kept.map shorten).flatMap Entry.text, ?_, ?_⟩
  · have hcanonical := ValueText.object count' (kept.map shorten)
      (by simpa using hcount') ?_ ?_ (fun _ => hsame ▸ hsorted)
    · rwa [hsame, assignAll_of_sorted (by simpa using hsorted),
        List.nil_append, hfields] at hcanonical
    · intro entry hentry
      obtain ⟨source, hsource, rfl⟩ := List.mem_map.mp hentry
      exact hnames source (hkept source hsource)
    · intro entry hentry
      obtain ⟨source, hsource, rfl⟩ := List.mem_map.mp hentry
      exact (hbody source (hkept source hsource)).1
  · simp only [List.length_append]
    omega

/-- Every text has a canonical text of the same value that is no longer. -/
theorem ValueText.exists_canonical {strict : Bool} {kind : Kind}
    {bytes : Bytes} {value : Value}
    (htext : ValueText strict kind bytes value) :
    ∃ bytes', ValueText true kind bytes' value ∧
      bytes'.length ≤ bytes.length := by
  induction htext with
  | fixed kind raw hwidth => exact ⟨raw, .fixed kind raw hwidth, le_rfl⟩
  | bool byte hbyte =>
      by_cases hzero : byte = 0
      · subst hzero
        exact ⟨[0], .bool 0 (by simp), le_rfl⟩
      · have htrue : ValueText true .bool [1] (boolVal (byte ≠ 0)) := by
          have hone : ValueText true .bool [1] (boolVal ((1 : UInt8) ≠ 0)) :=
            .bool 1 (by simp)
          simpa [hzero] using hone
        exact ⟨[1], htrue, by simp⟩
  | string count data hcount =>
      obtain ⟨count', hcount', hlength⟩ := hcount.exists_shorter le_rfl
      refine ⟨count' ++ data, .string count' data hcount', ?_⟩
      simp only [List.length_append]
      omega
  | object count entries hcount hnames hvalues hsorted ih =>
      exact exists_canonical_object hcount hnames ih
  | uint64Array count elements hcount =>
      obtain ⟨count', hcount', hlength⟩ := hcount.exists_shorter le_rfl
      refine ⟨_, .uint64Array count' elements hcount', ?_⟩
      simp only [List.length_append]
      omega
  | uint32Array count elements hcount =>
      obtain ⟨count', hcount', hlength⟩ := hcount.exists_shorter le_rfl
      refine ⟨_, .uint32Array count' elements hcount', ?_⟩
      simp only [List.length_append]
      omega
  | stringArray count items hcount hitems =>
      obtain ⟨count', hcount', hlength⟩ := hcount.exists_shorter le_rfl
      have hshort := fun item hitem => (hitems item hitem).exists_shorter le_rfl
      choose! length hlengths using hshort
      have hcanonical := ValueText.stringArray count'
        (items.map fun item => (length item, item.2)) (by simpa using hcount')
        (by
          intro item hitem
          obtain ⟨source, hsource, rfl⟩ := List.mem_map.mp hitem
          exact (hlengths source hsource).1)
      rw [List.map_map, List.flatMap_map] at hcanonical
      refine ⟨_, hcanonical, ?_⟩
      have hitemsLength :
          (items.flatMap fun item => length item ++ item.2).length ≤
            (items.flatMap fun item => item.1 ++ item.2).length := by
        apply length_flatMap_le
        intro item hitem
        have hle := (hlengths item hitem).2
        simp only [List.length_append]
        omega
      simp only [List.length_append]
      exact Nat.add_le_add hlength hitemsLength
  | objectArray count items hcount hitems ih =>
      obtain ⟨count', hcount', hlength⟩ := hcount.exists_shorter le_rfl
      choose! body hbody using ih
      have hcanonical := ValueText.objectArray count'
        (items.map fun item => (body item, item.2)) (by simpa using hcount')
        (by
          intro item hitem
          obtain ⟨source, hsource, rfl⟩ := List.mem_map.mp hitem
          exact (hbody source hsource).1)
      rw [List.map_map, List.flatMap_map] at hcanonical
      refine ⟨_, hcanonical, ?_⟩
      have hitemsLength : (items.flatMap body).length ≤
          (items.flatMap Prod.fst).length :=
        length_flatMap_le fun item hitem => (hbody item hitem).2
      simp only [List.length_append]
      exact Nat.add_le_add hlength hitemsLength

/-! ## Documents -/

theorem encodeStorage_of_text {bytes : Bytes} {s : Section}
    (htext : StorageText true bytes s) : encodeStorage s = .returned bytes := by
  obtain ⟨body, rfl, hbody⟩ := htext
  have hdepth : (objectVal s).depth ≤ sectionDepth s + 1 :=
    (depth_objectVal s).le
  have hencode := encodeValue_of_text hbody rfl hdepth storageHeader
  rwa [encodeValue_object] at hencode

theorem decodeStorage_of_text {strict : Bool} {bytes : Bytes} {s : Section}
    (htext : StorageText strict bytes s) (t : Bytes) :
    (decodeStorage (bytes ++ t)).outcome = .returned s := by
  obtain ⟨body, rfl, hbody⟩ := htext
  have hdecode : (decodeSection (body ++ t)).outcome =
      .returned (s, body.length) :=
    decodeSection_eq_returned_iff.mpr ⟨body, t, rfl, hbody.weaken, rfl⟩
  rw [List.append_assoc, decodeStorage_header, Traced.bind_outcome, hdecode]
  rfl

def SectionBuilt (s : Section) : Prop := Built (objectVal s)

/-- Encoding succeeds on every built section, and decoding gives it back,
whatever follows the encoding. -/
theorem storage_round_trip (s : Section) (hbuilt : SectionBuilt s) :
    ∃ out, encodeStorage s = .returned out ∧
      ∀ t, (decodeStorage (out ++ t)).outcome = .returned s := by
  obtain ⟨kind, body, htext⟩ := hbuilt.exists_text
  have hkind : kind = .object := Kind.tag_injective (htext.type_eq.symm.trans rfl)
  subst hkind
  have hstorage : StorageText true (storageHeader ++ body) s :=
    ⟨body, rfl, htext⟩
  exact ⟨_, encodeStorage_of_text hstorage, decodeStorage_of_text hstorage⟩

theorem storage_round_trip_nested :
    SectionBuilt [(text "height", uint64Val 7),
      (text "peers", objectArrayVal [[], [(text "id", int32Val (-1))]])] ∧
    ∃ out, encodeStorage [(text "height", uint64Val 7),
        (text "peers", objectArrayVal [[], [(text "id", int32Val (-1))]])] =
          .returned out ∧
      ∀ t, (decodeStorage (out ++ t)).outcome =
        .returned [(text "height", uint64Val 7),
          (text "peers", objectArrayVal [[], [(text "id", int32Val (-1))]])] := by
  have hinner : Built (objectVal [(text "id", int32Val (-1))]) :=
    .object _ (by simp [Sorted]) (by decide) (by decide) (by
      simpa using Built.int32 (-1))
  have hempty : Built (objectVal []) :=
    .object _ (by simp [Sorted]) (by decide) (by simp) (by simp)
  have hbuilt : SectionBuilt [(text "height", uint64Val 7),
      (text "peers", objectArrayVal [[], [(text "id", int32Val (-1))]])] := by
    refine .object _ ?_ (by decide) (by decide) ?_
    · simp only [Sorted, List.pairwise_cons]
      decide
    · simp only [List.forall_mem_cons]
      refine ⟨.uint64 7, .objectArray _ (by decide) ?_, by simp⟩
      simp only [List.forall_mem_cons]
      exact ⟨hempty, hinner, by simp⟩
  exact ⟨hbuilt, storage_round_trip _ hbuilt⟩

/-- The document decodes to `s`, and the decoder consumed `n` bytes of it,
the header among them. -/
def DecodesConsuming (data : Bytes) (s : Section) (n : ℕ) : Prop :=
  (decodeStorage data).outcome = .returned s ∧
    ∃ consumed, (decodeSection (data.drop storageHeaderSize)).outcome =
        .returned (s, consumed) ∧ n = storageHeaderSize + consumed

theorem DecodesConsuming.exists_text {data : Bytes} {s : Section} {n : ℕ}
    (hdecode : DecodesConsuming data s n) :
    StorageText false (data.take n) s ∧ n = (data.take n).length := by
  obtain ⟨hstorage, consumed, hsection, rfl⟩ := hdecode
  by_cases hheader : ∃ body, data = storageHeader ++ body
  · obtain ⟨body, rfl⟩ := hheader
    have hsize : storageHeader.length = storageHeaderSize := by decide
    rw [← hsize, List.drop_left] at hsection
    obtain ⟨part, tail, rfl, htext, rfl⟩ :=
      decodeSection_eq_returned_iff.mp hsection
    have htake : (storageHeader ++ (part ++ tail)).take
        (storageHeaderSize + part.length) = storageHeader ++ part := by
      rw [← hsize, ← List.append_assoc, ← List.length_append, List.take_left]
    rw [htake]
    exact ⟨⟨part, rfl, htext⟩, by simp [hsize]⟩
  · push Not at hheader
    obtain ⟨error, hfail⟩ := decodeStorage_eq_fail hheader
    simp [hfail] at hstorage

/-- Encoding what was decoded succeeds, is no longer than what was consumed,
decodes to the same section, and is what was consumed exactly when that was
canonical. -/
theorem encodeStorage_canonicalises (data : Bytes) (s : Section) (n : ℕ)
    (hdecode : DecodesConsuming data s n) :
    ∃ out, encodeStorage s = .returned out ∧ out.length ≤ n ∧
      (decodeStorage out).outcome = .returned s ∧
      (out = data.take n ↔ Canonical (data.take n)) := by
  obtain ⟨htext, hn⟩ := hdecode.exists_text
  obtain ⟨body, htake, hbody⟩ := id htext
  obtain ⟨canonical, hcanonical, hlength⟩ := hbody.exists_canonical
  have hstorage : StorageText true (storageHeader ++ canonical) s :=
    ⟨canonical, rfl, hcanonical⟩
  refine ⟨_, encodeStorage_of_text hstorage, ?_, ?_, ?_⟩
  · rw [hn, htake]
    simpa using hlength
  · simpa using decodeStorage_of_text hstorage []
  · constructor
    · intro hequal
      exact ⟨s, hequal ▸ hstorage⟩
    · rintro ⟨s', hother⟩
      -- the consumed bytes decode to one section only
      have hsame := (decodeStorage_of_text hother []).symm.trans
        (decodeStorage_of_text htext [])
      obtain rfl := Outcome.returned.inj hsame
      have hencode := (encodeStorage_of_text hstorage).symm.trans
        (encodeStorage_of_text hother)
      exact Outcome.returned.inj hencode

/-- A document with its fields out of order, a long varint and a bool byte
of seven. -/
theorem encodeStorage_canonicalises_unordered :
    DecodesConsuming
      (storageHeader ++ [0x09, 0x00, 0x01, 0x62, 0x0B, 0x07, 0x01, 0x61, 0x08,
        0x05, 0xFF])
      [(text "a", uint8Val 5), (text "b", boolVal true)] 19 ∧
    ∃ out, encodeStorage [(text "a", uint8Val 5), (text "b", boolVal true)] =
        .returned out ∧ out.length ≤ 19 := by
  have hdecode : DecodesConsuming
      (storageHeader ++ [0x09, 0x00, 0x01, 0x62, 0x0B, 0x07, 0x01, 0x61, 0x08,
        0x05, 0xFF])
      [(text "a", uint8Val 5), (text "b", boolVal true)] 19 :=
    ⟨rfl, 10, rfl, rfl⟩
  obtain ⟨out, hencode, hlength, -, -⟩ :=
    encodeStorage_canonicalises _ _ _ hdecode
  exact ⟨hdecode, out, hencode, hlength⟩

end GoP2P.Levin
