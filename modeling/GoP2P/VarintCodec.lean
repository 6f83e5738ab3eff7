import GoP2P.LevinVarint

/-!
# The range of the varint codec

Below `2 ^ 62` a packed value unpacks to itself, whatever follows it.  A buffer
unpacks exactly if it holds the width that its first byte marks, and what it
unpacks to has one shortest text.  The source packs larger values as well: the
shift drops their two high bits, so that they unpack to something else.
-/

namespace GoP2P.Levin

theorem toNat_le_varintMax8_iff (v : UInt64) :
    v ≤ varintMax8 ↔ v.toNat < VarintWidth.eight.limit := by
  rw [UInt64.le_iff_toNat_le]
  change v.toNat ≤ 4611686018427387903 ↔ v.toNat < 4611686018427387904
  omega

theorem packVarint_text {v : UInt64} (hv : v ≤ varintMax8) :
    VarintText true (packVarint v) v.toNat := by
  have hlimit := (toNat_le_varintMax8_iff v).mp hv
  have hpack := packVarint_eq hlimit
  rw [UInt64.ofNat_toNat] at hpack
  rw [hpack]
  exact VarintText.shortest hlimit

/-! ## What unpacks -/

/-- What a buffer unpacks to: the first byte fixes the width. -/
theorem unpackVarint_cons_eq (first : UInt8) (rest : Bytes) :
    unpackVarint (first :: rest) =
      if (first :: rest).length < (VarintWidth.ofByte first).size then
        .failed errVarintTruncated
      else .returned
        (UInt64.ofNat
          (leNat ((first :: rest).take (VarintWidth.ofByte first).size) / 4),
          (VarintWidth.ofByte first).size) := by
  rw [unpackVarint_cons, unpackWide_eq]

theorem unpackVarint_failed_iff (buf : Bytes) :
    (∃ error, unpackVarint buf = .failed error) ↔
      ∀ first ∈ buf.head?, buf.length < (VarintWidth.ofByte first).size := by
  cases buf with
  | nil =>
      constructor
      · intro _ first hfirst
        cases hfirst
      · intro _
        exact ⟨errVarintTruncated, rfl⟩
  | cons first rest =>
      rw [unpackVarint_cons_eq]
      split_ifs with hshort
      · simpa using hshort
      · simpa using hshort

theorem unpackVarint_ends (buf : Bytes) : (unpackVarint buf).Ends := by
  cases buf with
  | nil => exact Outcome.ends_failed errVarintTruncated
  | cons first rest =>
      rw [unpackVarint_cons_eq]
      split_ifs
      · exact Outcome.ends_failed errVarintTruncated
      · exact Outcome.ends_returned _

/-- The bytes that were consumed are a text of the value. -/
theorem varintText_of_unpackVarint {buf : Bytes} {v : UInt64} {n : ℕ}
    (hunpack : unpackVarint buf = .returned (v, n)) :
    (buf.take n).length = n ∧ VarintText false (buf.take n) v.toNat := by
  cases buf with
  | nil => cases hunpack
  | cons first rest =>
      rw [unpackVarint_cons_eq] at hunpack
      split_ifs at hunpack with hshort
      cases hunpack
      obtain ⟨part, tail, -, hpart, hsize, htext⟩ :=
        VarintText.exists_of_size_le (Nat.le_of_not_lt hshort)
      have hlimit := htext.value_lt
      simp only [VarintWidth.limit] at hlimit
      rw [hpart, UInt64.toNat_ofNat', Nat.mod_eq_of_lt (by omega)]
      exact ⟨hsize, htext⟩

/-- Whatever follows a text, the text alone is unpacked. -/
theorem unpackVarint_text_append {strict : Bool} {bytes : Bytes} {v : UInt64}
    (htext : VarintText strict bytes v.toNat) (tail : Bytes) :
    unpackVarint (bytes ++ tail) = .returned (v, bytes.length) := by
  have hpos := htext.length_pos
  cases bytes with
  | nil => simp at hpos
  | cons first rest =>
      have hsplit : first :: (rest ++ tail) = (first :: rest) ++ tail := rfl
      obtain ⟨hlength, hvalue⟩ := VarintText.width_of_prefix hsplit htext
      have hmark := (VarintWidth.ofByte first).mark_lt
      have hquotient : leNat (first :: rest) / 4 = v.toNat := by omega
      rw [List.cons_append, unpackVarint_cons_eq, if_neg, ← hlength,
        ← List.cons_append, List.take_left, hquotient, UInt64.ofNat_toNat]
      rw [← hlength, ← List.cons_append, List.length_append]
      omega

/-! ## Shortest texts -/

theorem length_packVarint_le {strict : Bool} {bytes : Bytes} {v : UInt64}
    (htext : VarintText strict bytes v.toNat) :
    (packVarint v).length ≤ bytes.length := by
  have hv := (toNat_le_varintMax8_iff v).mpr htext.value_lt
  obtain ⟨shorter, hshorter, hlength⟩ := htext.exists_shorter le_rfl
  rw [(packVarint_text hv).eq_shortest, ← hshorter.eq_shortest]
  exact hlength

/-- A text as long as the shortest one is the shortest one. -/
theorem packVarint_eq_iff {strict : Bool} {bytes : Bytes} {v : UInt64}
    (htext : VarintText strict bytes v.toNat) :
    packVarint v = bytes ↔ (packVarint v).length = bytes.length := by
  constructor
  · exact congrArg List.length
  · intro hlength
    have hv := (toNat_le_varintMax8_iff v).mpr htext.value_lt
    obtain ⟨width, hsize, hvalue, -⟩ := htext
    obtain ⟨width', hsize', hvalue', -⟩ := packVarint_text hv
    have hwidth : width' = width := by
      apply VarintWidth.eq_of_size_eq
      rw [← hsize', ← hsize, hlength]
    rw [← leBytes_leNat (packVarint v), ← leBytes_leNat bytes, hlength, hvalue,
      hvalue', hwidth]

/-- Packing and unpacking agree below `2 ^ 62`; unpacking fails exactly on
buffers that are too short; and of the texts of a value the packed one is the
only shortest. -/
theorem varint_codec_exact :
    (∀ v : UInt64, v.toNat ≤ 2 ^ 62 - 1 → ∀ tail,
      unpackVarint (packVarint v ++ tail) =
        .returned (v, (packVarint v).length)) ∧
    ∀ buf,
      ((∃ error, unpackVarint buf = .failed error) ↔
        ∀ first ∈ buf.head?, buf.length < (VarintWidth.ofByte first).size) ∧
      (unpackVarint buf).Ends ∧
      ∀ v n, unpackVarint buf = .returned (v, n) →
        (packVarint v).length ≤ n ∧
          (packVarint v = buf.take n ↔ (packVarint v).length = n) := by
  constructor
  · intro v hv tail
    have hmax : v ≤ varintMax8 := by
      rw [toNat_le_varintMax8_iff]
      change v.toNat < 4611686018427387904
      omega
    exact unpackVarint_text_append (packVarint_text hmax) tail
  · intro buf
    refine ⟨unpackVarint_failed_iff buf, unpackVarint_ends buf, ?_⟩
    intro v n hunpack
    obtain ⟨hlength, htext⟩ := varintText_of_unpackVarint hunpack
    have hle := length_packVarint_le htext
    have hiff := packVarint_eq_iff htext
    rw [hlength] at hle hiff
    exact ⟨hle, hiff⟩

/-- Two bytes that spell 1, which one byte can hold. -/
theorem varint_codec_exact_padded :
    unpackVarint [0x05, 0x00] = .returned (1, 2) ∧
      (packVarint 1).length ≤ 2 ∧ packVarint 1 ≠ [0x05, 0x00] := by
  have hunpack : unpackVarint [0x05, 0x00] = .returned (1, 2) := by decide
  obtain ⟨hle, hiff⟩ :=
    (varint_codec_exact.2 [0x05, 0x00]).2.2 1 2 hunpack
  refine ⟨hunpack, hle, ?_⟩
  intro heq
  exact absurd (hiff.mp heq) (by decide)

/-! ## Values beyond the range -/

/-- A packed value unpacks to itself exactly if it fits into 62 bits. -/
theorem packVarint_reversible_iff (v : UInt64) :
    (∃ n, unpackVarint (packVarint v) = .returned (v, n)) ↔
      v ≤ varintMax8 := by
  constructor
  · rintro ⟨n, hunpack⟩
    exact (toNat_le_varintMax8_iff v).mpr
      (varintText_of_unpackVarint hunpack).2.value_lt
  · intro hv
    have hunpack := unpackVarint_text_append (packVarint_text hv) []
    rw [List.append_nil] at hunpack
    exact ⟨_, hunpack⟩

/-- `2 ^ 62` is packed as 0 in eight bytes, and two values have one text. -/
theorem packVarint_drops_high_bits :
    unpackVarint (packVarint 4611686018427387904) = .returned (0, 8) ∧
      packVarint 4611686019501129728 = packVarint 1073741824 := by
  decide

end GoP2P.Levin
