import GoP2P.LevinFormat

/-!
# The storage decoder implements the storage format

Each decoding function is walked through once, from the fixed-width scalars up
to nested sections; the recursion is an induction over the nesting depth.
-/

namespace GoP2P.Levin

open SortedAssoc

def sectionFormat (level : ℕ) : Format Section where
  texts := SectionText false
  asks := Asks level .object

/-- What may follow a type tag.  An unknown tag has no texts. -/
def tagFormat (level : ℕ) (tag : UInt8) : Format Value where
  texts bytes value :=
    ∃ kind : Kind, kind.tag = tag ∧ ValueText false kind bytes value
  asks bytes request :=
    ∃ kind : Kind, kind.tag = tag ∧ Asks level kind bytes request

variable {level : ℕ}

theorem tagFormat_texts {kind : Kind} {bytes : Bytes} {value : Value} :
    (tagFormat level kind.tag).texts bytes value ↔
      ValueText false kind bytes value := by
  constructor
  · rintro ⟨other, htag, htext⟩
    rwa [Kind.tag_injective htag] at htext
  · exact fun htext => ⟨kind, rfl, htext⟩

theorem tagFormat_asks {kind : Kind} {bytes : Bytes} {request : Request} :
    (tagFormat level kind.tag).asks bytes request ↔
      Asks level kind bytes request := by
  constructor
  · rintro ⟨other, htag, hasks⟩
    rwa [Kind.tag_injective htag] at hasks
  · exact fun hasks => ⟨kind, rfl, hasks⟩

theorem not_asks_of_scalar {kind : Kind} (hkind : kind.elementSize = none)
    (hobject : kind ≠ .object) (bytes : Bytes) (request : Request) :
    ¬ Asks level kind bytes request := by
  intro hasks
  cases hasks with
  | nesting | map | field => exact hobject rfl
  | slice level kind size hsize => simp [hkind] at hsize
  | element => simp [Kind.elementSize] at hkind

/-! ## Scalars -/

theorem decodeFixed_decodes (width : ℕ) (value : ℕ → Value) (buf : Bytes) :
    Decodes buf 0 width
      ((Format.block width).andThen fun raw => .nothing (value (leNat raw)))
      (decodeFixed width value buf) := by
  unfold decodeFixed
  apply Decodes.guard_block Iff.rfl
  intro hwidth
  have hread : Decodes buf 0 (width + 0)
      ((Format.block width).andThen fun raw => .nothing (value (leNat raw)))
      (Traced.lift (slice buf 0 (0 + width)) >>= fun raw =>
        (pure (value (leNat raw), 0 + width) : Decoder (Value × ℕ))) := by
    apply Decodes.read_slice (StandsAt.zero buf) hwidth
    intro part tail hbuf hpart hat
    exact Decodes.pure tail (0 + width) (value (leNat part))
  simpa only [Nat.zero_add, Nat.add_zero] using hread

theorem fixed_decodes (kind : FixedKind) (buf : Bytes) :
    Decodes buf 0 0 (tagFormat level kind.tag)
      (decodeFixed kind.width kind.value buf) := by
  refine ((decodeFixed_decodes _ _ buf).of_lead_le (Nat.zero_le _)).congr ?_ ?_
  · intro bytes value
    rw [Format.andThen_nothing_texts, show kind.tag = (Kind.fixed kind).tag from rfl,
      tagFormat_texts]
    constructor
    · rintro ⟨raw, ⟨rfl, hwidth⟩, rfl⟩
      exact .fixed kind bytes hwidth
    · rintro ⟨⟩
      exact ⟨bytes, ⟨rfl, ‹_›⟩, rfl⟩
  · intro request
    rw [Format.andThen_nothing_asks, show kind.tag = (Kind.fixed kind).tag from rfl,
      tagFormat_asks]
    exact iff_of_false (fun hnone => hnone)
      (not_asks_of_scalar rfl (by simp) _ _)

theorem bool_decodes (buf : Bytes) :
    Decodes buf 0 0 (tagFormat level Kind.bool.tag)
      (decodeFixed 1 (fun n => boolVal (n ≠ 0)) buf) := by
  refine ((decodeFixed_decodes _ _ buf).of_lead_le (Nat.zero_le _)).congr ?_ ?_
  · intro bytes value
    rw [Format.andThen_nothing_texts, tagFormat_texts]
    have hnonzero : ∀ byte : UInt8, (leNat [byte] ≠ 0) = (byte ≠ 0) := by
      intro byte
      simp [leNat, ← UInt8.toNat_inj]
    constructor
    · rintro ⟨raw, ⟨rfl, hwidth⟩, rfl⟩
      obtain ⟨byte, rfl⟩ := List.length_eq_one_iff.mp hwidth
      simp only [hnonzero]
      exact .bool byte (by simp)
    · rintro ⟨⟩
      exact ⟨_, ⟨rfl, rfl⟩, by simp only [hnonzero]⟩
  · intro request
    rw [Format.andThen_nothing_asks, tagFormat_asks]
    exact iff_of_false (fun hnone => hnone)
      (not_asks_of_scalar rfl (by simp) _ _)

/-! ## Strings -/

def stringFormat {α : Type} (value : Bytes → α) : Format α :=
  varintFormat.andThen fun strLen =>
    (Format.block strLen.toNat).andThen fun data => .nothing (value data)

theorem VarintText.exists_toNat {strict : Bool} {count : Bytes} {n : ℕ}
    (hcount : VarintText strict count n) : ∃ v : UInt64, v.toNat = n := by
  have hlimit := hcount.value_lt
  simp only [VarintWidth.limit] at hlimit
  refine ⟨UInt64.ofNat n, ?_⟩
  rw [UInt64.toNat_ofNat', Nat.mod_eq_of_lt (by omega)]

theorem stringFormat_texts {α : Type} {value : Bytes → α} {bytes : Bytes}
    {spelled : α} :
    (stringFormat value).texts bytes spelled ↔
      ∃ count data, VarintText false count data.length ∧
        bytes = count ++ data ∧ spelled = value data := by
  constructor
  · rintro ⟨strLen, count, _, rfl, hcount, _, data, _, rfl, ⟨rfl, hlength⟩,
      rfl, rfl⟩
    refine ⟨count, data, ?_, by simp, rfl⟩
    rw [hlength]
    exact hcount
  · rintro ⟨count, data, hcount, rfl, rfl⟩
    obtain ⟨strLen, hlength⟩ := hcount.exists_toNat
    refine ⟨strLen, count, data, rfl, ?_, data, data, [], by simp,
      ⟨rfl, hlength.symm⟩, rfl, rfl⟩
    change VarintText false count strLen.toNat
    rwa [hlength]

theorem stringFormat_asks {α : Type} {value : Bytes → α} {bytes : Bytes}
    {request : Request} : ¬ (stringFormat value).asks bytes request := by
  rintro (hnone | ⟨strLen, count, rest, rfl, hcount, hrest⟩)
  · exact hnone
  · exact Format.andThen_nothing_asks.mp hrest

theorem stringBody_decodes {α : Type} {buf rest : Bytes} {off : ℕ}
    (hat : StandsAt buf off rest) (strLen : ℕ) (value : Bytes → α) :
    Decodes rest off 0
      ((Format.block strLen).andThen fun data => .nothing (value data))
      (do Traced.failIf (buf.length - off < strLen) errStorageTruncated
          Traced.emit (.copy strLen (buf.length - off))
          let data ← Traced.lift (slice buf off (off + strLen))
          return (value data, off + strLen)) := by
  have hleft : buf.length - off = rest.length := by
    rw [hat.length_eq, Nat.add_sub_cancel_left]
  rw [hleft]
  apply Decodes.guard_block Iff.rfl
  intro hlength
  apply Decodes.emit_copy hlength
  refine Decodes.of_lead_le (Nat.zero_le (strLen + 0)) ?_
  apply Decodes.read_slice hat hlength
  intro part tail hrest hpart hnext
  exact Decodes.pure tail (off + strLen) (value part)

theorem decodeString_decodes (buf : Bytes) :
    Decodes buf 0 0 (tagFormat level Kind.string.tag) (decodeString buf) := by
  have hread : Decodes buf 0 (1 + 0) (stringFormat stringVal)
      (decodeString buf) := by
    apply (varint_decodes buf).andThen
    intro strLen part tail hbuf hcount
    subst hbuf
    exact stringBody_decodes (StandsAt.zero _).advance strLen.toNat stringVal
  refine (hread.of_lead_le (Nat.zero_le _)).congr ?_ ?_
  · intro bytes value
    rw [stringFormat_texts, tagFormat_texts]
    constructor
    · rintro ⟨count, data, hcount, rfl, rfl⟩
      exact .string count data hcount
    · rintro ⟨⟩
      exact ⟨_, _, ‹_›, rfl, rfl⟩
  · intro request
    rw [tagFormat_asks]
    exact iff_of_false stringFormat_asks (not_asks_of_scalar rfl (by simp) _ _)

theorem decodeStringElement_decodes {buf rest : Bytes} {off : ℕ}
    (hat : StandsAt buf off rest) :
    Decodes rest off 1 (stringFormat id) (decodeStringElement buf off) := by
  have hread : Decodes rest off (1 + 0) (stringFormat id)
      (decodeStringElement buf off) := by
    apply Decodes.read_nested hat (varint_decodes rest)
    intro strLen part tail hrest hcount hnext
    exact stringBody_decodes hnext strLen.toNat id
  exact hread

theorem decodeFixedElement_decodes {α : Type} {width : ℕ} (hwidth : 1 ≤ width)
    (element : ℕ → α) {buf rest : Bytes} {off : ℕ}
    (hat : StandsAt buf off rest) :
    Decodes rest off 1
      ((Format.block width).andThen fun raw => .nothing (element (leNat raw)))
      (decodeFixedElement width element buf off) := by
  have hlength := hat.length_eq
  refine Decodes.of_lead_le (show 1 ≤ width + 0 by omega) ?_
  apply Decodes.guard_block (by omega)
  intro hfits
  apply Decodes.read_slice hat hfits
  intro part tail hrest hpart hnext
  exact Decodes.pure tail (off + width) (element (leNat part))

/-! ## Counted sequences -/

/-- A count, the request for as many elements, and the elements. -/
def countedFormat {β γ : Type} (request : ℕ → ℕ → Request)
    (element : Format β) (insert : γ → β → γ) (acc : γ) : Format γ :=
  varintFormat.andThen fun count =>
    (element.repeated insert count.toNat acc).asking (request count.toNat)

theorem countedFormat_texts {β γ : Type} {request : ℕ → ℕ → Request}
    {element : Format β} {insert : γ → β → γ} {acc value : γ} {bytes : Bytes} :
    (countedFormat request element insert acc).texts bytes value ↔
      ∃ (count : Bytes) (items : List (Bytes × β)),
        VarintText false count items.length ∧
        (∀ item ∈ items, element.texts item.1 item.2) ∧
        bytes = count ++ items.flatMap Prod.fst ∧
        value = (items.map Prod.snd).foldl insert acc := by
  constructor
  · rintro ⟨n, count, _, rfl, hcount, items, hlength, hitems, rfl, rfl⟩
    refine ⟨count, items, ?_, hitems, rfl, rfl⟩
    rw [hlength]
    exact hcount
  · rintro ⟨count, items, hcount, hitems, rfl, rfl⟩
    obtain ⟨n, hlength⟩ := hcount.exists_toNat
    refine ⟨n, count, _, rfl, ?_, items, hlength.symm, hitems, rfl, rfl⟩
    change VarintText false count n.toNat
    rwa [hlength]

theorem countedFormat_asks {β γ : Type} {request : ℕ → ℕ → Request}
    {element : Format β} {insert : γ → β → γ} {acc : γ} {bytes : Bytes}
    {asked : Request} :
    (countedFormat request element insert acc).asks bytes asked ↔
      ∃ (count : Bytes) (total : ℕ) (rest : Bytes),
        VarintText false count total ∧ bytes = count ++ rest ∧
        (asked = request total rest.length ∨
          ∃ (items : List (Bytes × β)) (tail : Bytes), items.length < total ∧
            (∀ item ∈ items, element.texts item.1 item.2) ∧
            rest = items.flatMap Prod.fst ++ tail ∧
            element.asks tail asked) := by
  constructor
  · rintro (hnone | ⟨n, count, rest, rfl, hcount, hrest⟩)
    · exact hnone.elim
    · exact ⟨count, n.toNat, rest, hcount, rfl, hrest⟩
  · rintro ⟨count, total, rest, hcount, rfl, hrest⟩
    obtain ⟨n, rfl⟩ := hcount.exists_toNat
    exact .inr ⟨n, count, rest, rfl, hcount, hrest⟩

theorem counted_decodes {β γ : Type} (request : ℕ → ℕ → Request)
    {element : Format β} {insert : γ → β → γ} (acc : γ) {buf : Bytes}
    {head : Decoder (UInt64 × ℕ)} (hhead : Decodes buf 0 1 varintFormat head)
    {step : ℕ → Decoder (β × ℕ)}
    (hstep : ∀ off rest, StandsAt buf off rest →
      Decodes rest off 1 element (step off)) :
    Decodes buf 0 1 (countedFormat request element insert acc)
      (do let (count, off) ← head
          Traced.emit (.request (request count.toNat (buf.length - off)))
          decodeLoop step insert count.toNat off acc) := by
  change Decodes buf 0 (1 + 0) _ _
  apply hhead.andThen
  intro count part tail hbuf hcount
  subst hbuf
  apply Decodes.emit_request
  · simp
  · exact Decodes.loop hstep count.toNat (StandsAt.zero _).advance acc

/-! ## Arrays -/

theorem foldl_append_singleton {β : Type} (items acc : List β) :
    items.foldl (fun arr item => arr ++ [item]) acc = acc ++ items := by
  rw [List.foldl_append_eq_append, ← List.flatMap_def, List.flatMap_singleton']

/-- The four cases of the array switch, which differ in the element they read
and in the field that receives the array. -/
theorem array_decodes {β : Type} {element : Format β} {buf : Bytes}
    {step : ℕ → Decoder (β × ℕ)}
    (hstep : ∀ off rest, StandsAt buf off rest →
      Decodes rest off 1 element (step off))
    (value : List β → Value) {kind : Kind} {size : ℕ}
    (htexts : ∀ bytes spelled, ValueText false kind bytes spelled ↔
      ∃ (count : Bytes) (items : List (Bytes × β)),
        VarintText false count items.length ∧
        (∀ item ∈ items, element.texts item.1 item.2) ∧
        bytes = count ++ items.flatMap Prod.fst ∧
        spelled = value (items.map Prod.snd))
    (hasks : ∀ request, Asks level kind buf request ↔
      (countedFormat (.slice size) element (fun arr item => arr ++ [item])
        []).asks buf request) :
    Decodes buf 0 0 (tagFormat level kind.tag)
      (do let (count, off) ← Traced.lift (unpackVarint buf)
          Traced.emit (.request (.slice size count.toNat (buf.length - off)))
          let (arr, off) ← decodeLoop step (fun arr item => arr ++ [item])
            count.toNat off []
          return (value arr, off)) := by
  have hcounted : Decodes buf 0 1
      (countedFormat (.slice size) element (fun arr item => arr ++ [item]) []) _ :=
    counted_decodes _ [] (varint_decodes buf) hstep
  have hread : Decodes buf 0 (1 + 0)
      ((countedFormat (.slice size) element
          (fun arr item => arr ++ [item]) []).andThen
        fun arr => .nothing (value arr))
      ((do let (count, off) ← Traced.lift (unpackVarint buf)
           Traced.emit (.request (.slice size count.toNat (buf.length - off)))
           decodeLoop step (fun arr item => arr ++ [item])
             count.toNat off []) >>= fun result =>
        (pure (value result.1, result.2) : Decoder (Value × ℕ))) := by
    apply hcounted.andThen
    intro arr part tail hbuf htext
    exact Decodes.pure tail _ (value arr)
  simp only [Traced.bind_assoc] at hread
  refine (hread.of_lead_le (Nat.zero_le _)).congr ?_ ?_
  · intro bytes spelled
    rw [Format.andThen_nothing_texts, tagFormat_texts, htexts]
    simp only [countedFormat_texts, foldl_append_singleton, List.nil_append]
    constructor
    · rintro ⟨arr, ⟨count, items, hcount, hitems, rfl, rfl⟩, rfl⟩
      exact ⟨count, items, hcount, hitems, rfl, rfl⟩
    · rintro ⟨count, items, hcount, hitems, rfl, rfl⟩
      exact ⟨_, ⟨count, items, hcount, hitems, rfl, rfl⟩, rfl⟩
  · intro request
    rw [Format.andThen_nothing_asks, tagFormat_asks, hasks]

theorem silent_array_asks {β : Type} {element : Format β} {kind : Kind}
    {size : ℕ} (hsize : kind.elementSize = some size)
    (hobjects : kind ≠ .objectArray)
    (hsilent : ∀ bytes request, ¬ element.asks bytes request)
    (buf : Bytes) (request : Request) :
    Asks level kind buf request ↔
      (countedFormat (.slice size) element (fun arr item => arr ++ [item])
        []).asks buf request := by
  rw [countedFormat_asks]
  constructor
  · intro hasks
    cases hasks with
    | nesting | map | field => simp [Kind.elementSize] at hsize
    | slice level kind size' hsize' count rest declared hcount =>
        obtain rfl := Option.some.inj (hsize.symm.trans hsize')
        exact ⟨count, declared, rest, hcount, rfl, .inl rfl⟩
    | element => exact absurd rfl hobjects
  · rintro ⟨count, total, rest, hcount, rfl, rfl |
      ⟨items, tail, -, -, -, hasks⟩⟩
    · exact .slice level kind size hsize count rest total hcount
    · exact absurd hasks (hsilent _ _)

theorem fixedElement_texts {α : Type} {width : ℕ} {toNat : α → ℕ}
    {ofNat : ℕ → α} (hof : ∀ x, ofNat (toNat x) = x)
    (hlt : ∀ x, toNat x < 256 ^ width)
    (hto : ∀ n, n < 256 ^ width → toNat (ofNat n) = n) {bytes : Bytes}
    {x : α} :
    ((Format.block width).andThen
        fun raw => .nothing (ofNat (leNat raw))).texts bytes x ↔
      bytes = leBytes width (toNat x) := by
  rw [Format.andThen_nothing_texts]
  constructor
  · rintro ⟨raw, ⟨rfl, hwidth⟩, rfl⟩
    have hbound := leNat_lt bytes
    rw [hwidth] at hbound
    rw [hto _ hbound, ← hwidth, leBytes_leNat]
  · rintro rfl
    exact ⟨_, ⟨rfl, length_leBytes _ _⟩, by
      rw [leNat_leBytes_of_lt (hlt x), hof]⟩

/-- An array whose elements have one spelling each is given by its
elements. -/
theorem exists_items_iff {α : Type} {element : Format α} {f : α → Bytes}
    (helement : ∀ {bytes x}, element.texts bytes x ↔ bytes = f x)
    {bytes : Bytes} {value : List α → Value} {spelled : Value} :
    (∃ (count : Bytes) (items : List (Bytes × α)),
      VarintText false count items.length ∧
      (∀ item ∈ items, element.texts item.1 item.2) ∧
      bytes = count ++ items.flatMap Prod.fst ∧
      spelled = value (items.map Prod.snd)) ↔
    ∃ (count : Bytes) (elements : List α),
      VarintText false count elements.length ∧
      bytes = count ++ elements.flatMap f ∧ spelled = value elements := by
  simp only [helement]
  constructor
  · rintro ⟨count, items, hcount, hitems, rfl, rfl⟩
    refine ⟨count, items.map Prod.snd, by simpa using hcount, ?_, rfl⟩
    rw [List.flatMap_map, List.flatMap_congr hitems]
  · rintro ⟨count, elements, hcount, rfl, rfl⟩
    refine ⟨count, elements.map fun x => (f x, x), by simpa using hcount,
      by simp, ?_, ?_⟩
    · rw [List.flatMap_map]
    · simp [Function.comp_def]

theorem decodeUint64Array_decodes (buf : Bytes) :
    Decodes buf 0 0 (tagFormat level Kind.uint64Array.tag)
      (do let (count, off) ← Traced.lift (unpackVarint buf)
          Traced.emit (.request (.slice 8 count.toNat (buf.length - off)))
          let (arr, off) ← decodeLoop (decodeFixedElement 8 UInt64.ofNat buf)
            (fun arr n => arr ++ [n]) count.toNat off []
          return (uint64ArrayVal arr, off)) := by
  refine array_decodes
    (fun off rest hat => decodeFixedElement_decodes (by decide) _ hat)
    uint64ArrayVal ?_
    (silent_array_asks rfl (by simp)
      (fun _ _ hasks => Format.andThen_nothing_asks.mp hasks) buf)
  intro bytes spelled
  rw [exists_items_iff (fixedElement_texts (fun n => UInt64.ofNat_toNat)
    (fun n => n.toNat_lt) (fun n hn => UInt64.toNat_ofNat_of_lt' hn))]
  constructor
  · rintro ⟨⟩
    exact ⟨_, _, ‹_›, rfl, rfl⟩
  · rintro ⟨count, elements, hcount, rfl, rfl⟩
    exact .uint64Array count elements hcount

theorem decodeUint32Array_decodes (buf : Bytes) :
    Decodes buf 0 0 (tagFormat level Kind.uint32Array.tag)
      (do let (count, off) ← Traced.lift (unpackVarint buf)
          Traced.emit (.request (.slice 4 count.toNat (buf.length - off)))
          let (arr, off) ← decodeLoop (decodeFixedElement 4 UInt32.ofNat buf)
            (fun arr n => arr ++ [n]) count.toNat off []
          return (uint32ArrayVal arr, off)) := by
  refine array_decodes
    (fun off rest hat => decodeFixedElement_decodes (by decide) _ hat)
    uint32ArrayVal ?_
    (silent_array_asks rfl (by simp)
      (fun _ _ hasks => Format.andThen_nothing_asks.mp hasks) buf)
  intro bytes spelled
  rw [exists_items_iff (fixedElement_texts (fun n => UInt32.ofNat_toNat)
    (fun n => n.toNat_lt) (fun n hn => UInt32.toNat_ofNat_of_lt' hn))]
  constructor
  · rintro ⟨⟩
    exact ⟨_, _, ‹_›, rfl, rfl⟩
  · rintro ⟨count, elements, hcount, rfl, rfl⟩
    exact .uint32Array count elements hcount

theorem decodeStringArray_decodes (buf : Bytes) :
    Decodes buf 0 0 (tagFormat level Kind.stringArray.tag)
      (do let (count, off) ← Traced.lift (unpackVarint buf)
          Traced.emit (.request (.slice 24 count.toNat (buf.length - off)))
          let (arr, off) ← decodeLoop (decodeStringElement buf)
            (fun arr data => arr ++ [data]) count.toNat off []
          return (stringArrayVal arr, off)) := by
  refine array_decodes (fun off rest hat => decodeStringElement_decodes hat)
    stringArrayVal ?_
    (silent_array_asks rfl (by simp) (fun _ _ => stringFormat_asks) buf)
  intro bytes spelled
  simp only [stringFormat_texts]
  constructor
  · rintro ⟨⟩
    rename_i count items hcount hitems
    refine ⟨count, items.map fun item => (item.1 ++ item.2, item.2),
      by simpa using hcount, ?_, ?_, ?_⟩
    · intro item hitem
      obtain ⟨source, hsource, rfl⟩ := List.mem_map.mp hitem
      exact ⟨source.1, source.2, hitems source hsource, rfl, rfl⟩
    · rw [List.flatMap_map]
    · simp [Function.comp_def]
  · rintro ⟨count, items, hcount, hitems, rfl, rfl⟩
    obtain ⟨sources, rfl, hsources⟩ := exists_map_eq
      (f := fun source : Bytes × Bytes => (source.1 ++ source.2, source.2))
      (p := fun source => VarintText false source.1 source.2.length)
      (fun item hitem => by
        obtain ⟨length, data, hlength, hbytes, hdata⟩ := hitems item hitem
        exact ⟨(length, data), hlength, Prod.ext hbytes.symm hdata.symm⟩)
    rw [List.flatMap_map, List.map_map]
    exact .stringArray count sources (by simpa using hcount) hsources

theorem decodeSectionElement_decodes
    {decodeSection : Bytes → Decoder (Section × ℕ)} {buf rest : Bytes}
    {off : ℕ} (hat : StandsAt buf off rest)
    (hsection : Decodes rest 0 1 (sectionFormat level) (decodeSection rest)) :
    Decodes rest off 1 (sectionFormat level)
      (decodeSectionElement decodeSection buf off) := by
  have hread : Decodes rest off (1 + 0)
      ((sectionFormat level).andThen fun sec => .nothing sec)
      (decodeSectionElement decodeSection buf off) := by
    apply Decodes.read_nested hat hsection
    intro sec part tail hrest htext hnext
    exact Decodes.pure tail (off + part.length) sec
  refine hread.congr ?_ ?_
  · intro bytes sec
    rw [Format.andThen_nothing_texts]
    simp
  · intro request
    exact Format.andThen_nothing_asks

theorem decodeObjectArray_decodes
    {decodeSection : Bytes → Decoder (Section × ℕ)} (buf : Bytes)
    (hsection : ∀ rest, rest.length ≤ buf.length →
      Decodes rest 0 1 (sectionFormat level) (decodeSection rest)) :
    Decodes buf 0 0 (tagFormat level Kind.objectArray.tag)
      (do let (count, off) ← Traced.lift (unpackVarint buf)
          Traced.emit (.request (.slice 8 count.toNat (buf.length - off)))
          let (arr, off) ← decodeLoop (decodeSectionElement decodeSection buf)
            (fun arr sec => arr ++ [sec]) count.toNat off []
          return (objectArrayVal arr, off)) := by
  refine array_decodes
    (fun off rest hat => decodeSectionElement_decodes hat (hsection rest (by
      rw [hat.length_eq]
      omega)))
    objectArrayVal ?_ ?_
  · intro bytes spelled
    constructor
    · rintro ⟨⟩
      exact ⟨_, _, ‹_›, ‹_›, rfl, rfl⟩
    · rintro ⟨count, items, hcount, hitems, rfl, rfl⟩
      exact .objectArray count items hcount hitems
  · intro request
    rw [countedFormat_asks]
    constructor
    · intro hasks
      cases hasks with
      | slice level kind size hsize count rest declared hcount =>
          obtain rfl := Option.some.inj hsize
          exact ⟨count, declared, rest, hcount, rfl, .inl rfl⟩
      | element level count total items body request hcount hlength hitems
          hbody =>
          exact ⟨count, total, _, hcount, rfl,
            .inr ⟨items, body, hlength, hitems, rfl, hbody⟩⟩
    · rintro ⟨count, total, rest, hcount, rfl, rfl |
        ⟨items, tail, hlength, hitems, rfl, hasks⟩⟩
      · exact .slice level _ 8 rfl count rest total hcount
      · exact .element level count total items tail request hcount hlength
          hitems hasks

/-! ## Values -/

theorem object_decodes
    {decodeSection : Bytes → Decoder (Section × ℕ)} {buf : Bytes}
    (hsection : Decodes buf 0 1 (sectionFormat level) (decodeSection buf)) :
    Decodes buf 0 0 (tagFormat level Kind.object.tag)
      (do let (sec, consumed) ← decodeSection buf
          return (objectVal sec, consumed)) := by
  have hread : Decodes buf 0 (1 + 0)
      ((sectionFormat level).andThen fun sec => .nothing (objectVal sec))
      (do let (sec, consumed) ← decodeSection buf
          return (objectVal sec, consumed)) := by
    apply hsection.andThen
    intro sec part tail hbuf htext
    exact Decodes.pure tail _ (objectVal sec)
  refine (hread.of_lead_le (Nat.zero_le _)).congr ?_ ?_
  · intro bytes value
    rw [Format.andThen_nothing_texts, tagFormat_texts]
    constructor
    · rintro ⟨sec, htext, rfl⟩
      exact htext
    · intro htext
      cases htext with
      | object count entries hcount hnames hvalues hsorted =>
          exact ⟨_, .object count entries hcount hnames hvalues hsorted, rfl⟩
  · intro request
    rw [Format.andThen_nothing_asks, tagFormat_asks]
    rfl

theorem arrayFlag_or_elemType : ∀ tag : UInt8, tag &&& arrayFlag ≠ 0 →
    arrayFlag ||| (tag &&& ~~~arrayFlag) = tag := by
  decide +kernel

theorem decodeArray_unknown
    {decodeSection : Bytes → Decoder (Section × ℕ)} {buf : Bytes} {tag : UInt8}
    (harray : tag &&& arrayFlag ≠ 0) (hunknown : ∀ kind : Kind, kind.tag ≠ tag) :
    Decodes buf 0 0 (tagFormat level tag) (decodeArray decodeSection buf tag) := by
  have hflag := arrayFlag_or_elemType tag harray
  have huint64 : tag &&& ~~~arrayFlag ≠ typeUint64 := by
    intro helem
    exact hunknown .uint64Array (by rw [← hflag, helem]; rfl)
  have huint32 : tag &&& ~~~arrayFlag ≠ typeUint32 := by
    intro helem
    exact hunknown .uint32Array (by rw [← hflag, helem]; rfl)
  have hstring : tag &&& ~~~arrayFlag ≠ typeString := by
    intro helem
    exact hunknown .stringArray (by rw [← hflag, helem]; rfl)
  have hobject : tag &&& ~~~arrayFlag ≠ typeObject := by
    intro helem
    exact hunknown .objectArray (by rw [← hflag, helem]; rfl)
  unfold decodeArray
  simp only [if_neg huint64, if_neg huint32, if_neg hstring, if_neg hobject]
  have hread : Decodes buf 0 (1 + 0)
      (varintFormat.andThen fun _ => ⟨fun _ _ => False, fun _ _ => False⟩)
      (Traced.lift (unpackVarint buf) >>= fun _ =>
        (Traced.fail (.wrap "levin.decodeArray"
          (text "unknown type tag: array of 0x" ++
            hexByte (tag &&& ~~~arrayFlag))
          errStorageUnknownType) : Decoder (Value × ℕ))) := by
    apply (varint_decodes buf).andThen
    intro count part tail hbuf hcount
    exact Decodes.fail _ (fun _ _ _ _ hnone => hnone) (fun _ hnone => hnone)
  refine (hread.of_lead_le (Nat.zero_le _)).congr ?_ ?_
  · intro bytes value
    refine iff_of_false ?_ ?_
    · rintro ⟨_, _, _, _, _, hnone⟩
      exact hnone
    · rintro ⟨kind, htag, -⟩
      exact hunknown kind htag
  · intro request
    refine iff_of_false ?_ ?_
    · rintro (hnone | ⟨_, _, _, _, _, hnone⟩) <;> exact hnone
    · rintro ⟨kind, htag, -⟩
      exact hunknown kind htag

theorem decodeValue_unknown
    {decodeSection : Bytes → Decoder (Section × ℕ)} {buf : Bytes} {tag : UInt8}
    (hunknown : ∀ kind : Kind, kind.tag ≠ tag) :
    Decodes buf 0 0 (tagFormat level tag) (decodeValue decodeSection buf tag) := by
  have hfixed : ∀ kind : FixedKind, tag ≠ kind.tag :=
    fun kind htag => hunknown (.fixed kind) htag.symm
  unfold decodeValue
  by_cases harray : tag &&& arrayFlag ≠ 0
  · rw [if_pos harray]
    exact decodeArray_unknown harray hunknown
  · rw [if_neg harray, if_neg (show tag ≠ typeUint64 from hfixed .uint64),
      if_neg (show tag ≠ typeInt64 from hfixed .int64),
      if_neg (show tag ≠ typeDouble from hfixed .double),
      if_neg (show tag ≠ typeUint32 from hfixed .uint32),
      if_neg (show tag ≠ typeInt32 from hfixed .int32),
      if_neg (show tag ≠ typeUint16 from hfixed .uint16),
      if_neg (show tag ≠ typeInt16 from hfixed .int16),
      if_neg (show tag ≠ typeUint8 from hfixed .uint8),
      if_neg (show tag ≠ typeInt8 from hfixed .int8),
      if_neg (show tag ≠ typeBool from fun htag => hunknown .bool htag.symm),
      if_neg (show tag ≠ typeString from
        fun htag => hunknown .string htag.symm),
      if_neg (show tag ≠ typeObject from
        fun htag => hunknown .object htag.symm)]
    refine Decodes.fail _ ?_ ?_
    · rintro part tail value - ⟨kind, htag, -⟩
      exact hunknown kind htag
    · rintro request ⟨kind, htag, -⟩
      exact hunknown kind htag

theorem decodeValue_decodes
    {decodeSection : Bytes → Decoder (Section × ℕ)} (buf : Bytes) (tag : UInt8)
    (hsection : ∀ rest, rest.length ≤ buf.length →
      Decodes rest 0 1 (sectionFormat level) (decodeSection rest)) :
    Decodes buf 0 0 (tagFormat level tag) (decodeValue decodeSection buf tag) := by
  by_cases hknown : ∃ kind : Kind, kind.tag = tag
  · obtain ⟨kind, rfl⟩ := hknown
    cases kind with
    | fixed kind =>
        have hcase : decodeValue decodeSection buf kind.tag =
            decodeFixed kind.width kind.value buf := by
          cases kind <;> rfl
        rw [Kind.tag, hcase]
        exact fixed_decodes kind buf
    | bool => exact bool_decodes buf
    | string => exact decodeString_decodes buf
    | object => exact object_decodes (hsection buf le_rfl)
    | uint64Array => exact decodeUint64Array_decodes buf
    | uint32Array => exact decodeUint32Array_decodes buf
    | stringArray => exact decodeStringArray_decodes buf
    | objectArray => exact decodeObjectArray_decodes buf hsection
  · push Not at hknown
    exact decodeValue_unknown hknown

/-! ## Sections -/

def entryFormat (level : ℕ) : Format (Bytes × Value) :=
  Format.byte.andThen fun nameLen =>
    (Format.block nameLen.toNat).andThen fun name =>
      Format.byte.andThen fun tag =>
        (tagFormat level tag).andThen fun value => .nothing (name, value)

theorem toNat_ofNat_length {name : Bytes} (hname : name.length ≤ 255) :
    (UInt8.ofNat name.length).toNat = name.length := by
  rw [UInt8.toNat_ofNat', Nat.mod_eq_of_lt (by omega)]

theorem entryFormat_texts {bytes : Bytes} {field : Bytes × Value} :
    (entryFormat level).texts bytes field ↔
      ∃ entry : Entry, (entry.name.length ≤ 255 ∧
        ValueText false entry.kind entry.body entry.value) ∧
        (entry.text, entry.field) = (bytes, field) := by
  constructor
  · rintro ⟨nameLen, _, _, rfl, rfl, _, name, _, rfl, ⟨rfl, hlength⟩, tag, _, _,
      rfl, rfl, value, body, _, rfl, ⟨kind, rfl, htext⟩, rfl, rfl⟩
    have hbyte := nameLen.toNat_lt
    have hname : UInt8.ofNat name.length = nameLen := by
      rw [hlength, UInt8.ofNat_toNat]
    refine ⟨⟨name, kind, body, value⟩, ⟨by simp only; omega, htext⟩, ?_⟩
    simp [Entry.text, Entry.field, hname]
  · rintro ⟨⟨name, kind, body, value⟩, ⟨hname, htext⟩, hequal⟩
    obtain ⟨rfl, rfl⟩ := Prod.mk.inj hequal
    refine ⟨UInt8.ofNat name.length, [UInt8.ofNat name.length], _, rfl, rfl,
      name, name, _, rfl, ⟨rfl, (toNat_ofNat_length hname).symm⟩, kind.tag,
      [kind.tag], body, rfl, rfl, value, body, [], by simp, ⟨kind, rfl, htext⟩,
      rfl, rfl⟩

theorem entryFormat_asks {bytes : Bytes} {request : Request} :
    (entryFormat level).asks bytes request ↔
      ∃ (name : Bytes) (kind : Kind) (body : Bytes), name.length ≤ 255 ∧
        bytes = UInt8.ofNat name.length :: (name ++ kind.tag :: body) ∧
        Asks level kind body request := by
  constructor
  · rintro (hnone | ⟨nameLen, _, _, rfl, rfl, hnone | ⟨_, name, _, rfl,
      ⟨rfl, hlength⟩, hnone | ⟨tag, _, body, rfl, rfl, hbody⟩⟩⟩)
    · exact hnone.elim
    · exact hnone.elim
    · exact hnone.elim
    · obtain ⟨kind, rfl, hasks⟩ := Format.andThen_nothing_asks.mp hbody
      have hbyte := nameLen.toNat_lt
      have hname : UInt8.ofNat name.length = nameLen := by
        rw [hlength, UInt8.ofNat_toNat]
      refine ⟨name, kind, body, by omega, by simp [hname], hasks⟩
  · rintro ⟨name, kind, body, hname, rfl, hasks⟩
    refine .inr ⟨UInt8.ofNat name.length, [UInt8.ofNat name.length], _, rfl,
      rfl, .inr ⟨name, name, _, rfl, ⟨rfl, (toNat_ofNat_length hname).symm⟩,
      .inr ⟨kind.tag, [kind.tag], body, rfl, rfl, ?_⟩⟩⟩
    exact Format.andThen_nothing_asks.mpr ⟨kind, rfl, hasks⟩

theorem decodeEntry_decodes
    {decodeValue : Bytes → UInt8 → Decoder (Value × ℕ)} {buf rest : Bytes}
    {off : ℕ} (hat : StandsAt buf off rest)
    (hvalue : ∀ body tag, body.length + 2 ≤ rest.length →
      Decodes body 0 0 (tagFormat level tag) (decodeValue body tag)) :
    Decodes rest off 1 (entryFormat level) (decodeEntry decodeValue buf off) := by
  refine Decodes.of_lead_le (show 1 ≤ 1 + 0 from le_rfl) ?_
  apply Decodes.read_byte hat errStorageTruncated
  intro nameLen named hrest hnamed
  have hlength := hnamed.length_eq
  -- the byte of the name length pays for the iteration
  refine Decodes.of_lead_le (Nat.zero_le (nameLen.toNat + (1 + (0 + 0)))) ?_
  apply Decodes.guard_block (by omega)
  intro hfits
  apply Decodes.emit_copy (by omega)
  apply Decodes.read_slice hnamed hfits
  intro name tagged hsplit hname htagged
  apply Decodes.read_byte htagged errStorageTruncated
  intro tag body htag hbody
  have hshort : body.length + 2 ≤ rest.length := by
    rw [hrest, hsplit, htag]
    simp only [List.length_cons, List.length_append]
    omega
  apply Decodes.read_nested hbody ((hvalue body tag hshort).mapError _)
  intro value part tail hpart htext hnext
  exact Decodes.pure tail _ (name, value)

theorem sectionFormat_texts {bytes : Bytes} {s : Section} :
    (((countedFormat .map (entryFormat (level + 1))
        (fun s field => assign field.1 field.2 s) []).asking
          fun _ => .nesting level).texts bytes s) ↔
      (sectionFormat level).texts bytes s := by
  change _ ↔ SectionText false bytes s
  rw [Format.asking, countedFormat_texts, sectionText_iff]
  constructor
  · rintro ⟨count, items, hcount, hitems, rfl, rfl⟩
    obtain ⟨entries, rfl, hentries⟩ := exists_map_eq fun item hitem =>
      entryFormat_texts.mp (hitems item hitem)
    refine ⟨count, entries, ?_, ?_, by simpa using hcount,
      fun entry hentry => (hentries entry hentry).1,
      fun entry hentry => (hentries entry hentry).2, by simp⟩
    · rw [List.flatMap_map]
    · rw [List.map_map]
      rfl
  · rintro ⟨count, entries, rfl, rfl, hcount, hnames, hvalues, -⟩
    refine ⟨count, entries.map fun entry => (entry.text, entry.field),
      by simpa using hcount, ?_, ?_, ?_⟩
    · intro item hitem
      obtain ⟨entry, hentry, rfl⟩ := List.mem_map.mp hitem
      exact entryFormat_texts.mpr
        ⟨entry, ⟨hnames entry hentry, hvalues entry hentry⟩, rfl⟩
    · rw [List.flatMap_map]
    · rw [List.map_map]
      rfl

theorem sectionFormat_asks {bytes : Bytes} {request : Request} :
    ((countedFormat .map (entryFormat (level + 1))
        (fun s field => assign field.1 field.2 s) ([] : Section)).asking
          fun _ => .nesting level).asks bytes request ↔
      (sectionFormat level).asks bytes request := by
  simp only [Format.asking, countedFormat_asks]
  constructor
  · rintro (rfl | ⟨count, total, rest, hcount, rfl, rfl |
      ⟨items, tail, hlength, hitems, rfl, hasks⟩⟩)
    · exact .nesting level bytes
    · exact .map level count rest total hcount
    · obtain ⟨entries, rfl, hentries⟩ := exists_map_eq fun item hitem =>
        entryFormat_texts.mp (hitems item hitem)
      obtain ⟨name, kind, body, hname, rfl, hbody⟩ :=
        entryFormat_asks.mp hasks
      rw [List.flatMap_map]
      exact .field level count total entries name kind body request hcount
        (by simpa using hlength) (fun entry hentry => (hentries entry hentry).1)
        (fun entry hentry => (hentries entry hentry).2) hname hbody
  · intro hasks
    cases hasks with
    | nesting => exact .inl rfl
    | map level count rest declared hcount =>
        exact .inr ⟨count, declared, rest, hcount, rfl, .inl rfl⟩
    | slice level kind size hsize => simp [Kind.elementSize] at hsize
    | field level count total entries name kind body request hcount hlength
        hnames hvalues hname hbody =>
        refine .inr ⟨count, total, _, hcount, rfl, .inr
          ⟨entries.map fun entry => (entry.text, entry.field), _,
            by simpa using hlength, ?_, by rw [List.flatMap_map],
            entryFormat_asks.mpr ⟨name, kind, body, hname, rfl, hbody⟩⟩⟩
        intro item hitem
        obtain ⟨entry, hentry, rfl⟩ := List.mem_map.mp hitem
        exact entryFormat_texts.mpr
          ⟨entry, ⟨hnames entry hentry, hvalues entry hentry⟩, rfl⟩

theorem decodeSectionTo_decodes {depth : ℕ} {buf : Bytes}
    (hdepth : buf.length < depth) (level : ℕ) :
    Decodes buf 0 1 (sectionFormat level) (decodeSectionTo depth level buf) := by
  induction depth generalizing buf level with
  | zero => omega
  | succ depth ih =>
      have hcounted : Decodes buf 0 1
          ((countedFormat .map (entryFormat (level + 1))
            (fun s field => assign field.1 field.2 s) ([] : Section)).asking
              fun _ => .nesting level)
          (decodeSectionTo (depth + 1) level buf) := by
        apply Decodes.emit_request 0 rfl
        apply counted_decodes _ [] ((varint_decodes buf).mapError _)
        intro off rest hat
        have hlength := hat.length_eq
        apply decodeEntry_decodes hat
        intro body tag hbody
        apply decodeValue_decodes
        intro inner hinner
        exact ih (by omega) (level + 1)
      exact hcounted.congr (fun _ _ => sectionFormat_texts)
        (fun _ => sectionFormat_asks)

theorem decodeSection_decodes (buf : Bytes) :
    Decodes buf 0 1 (sectionFormat 1) (decodeSection buf) :=
  decodeSectionTo_decodes (Nat.lt_succ_self _) 1

end GoP2P.Levin
