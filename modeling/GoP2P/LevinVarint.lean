import GoP2P.CoreError
import GoP2P.Decoding

/-!
# Variable-width integers of portable storage

The two low bits of the first byte mark the width, one, two, four or eight
bytes, and the remaining bits carry the value in little-endian order.  The
source packs into the shortest width and unpacks any.
-/

namespace GoP2P.Levin

def varintMask : UInt8 := 0x03
def varintMark1 : UInt8 := 0x00
def varintMark2 : UInt8 := 0x01
def varintMark4 : UInt8 := 0x02
def varintMark8 : UInt8 := 0x03
def varintMax1 : UInt64 := 63
def varintMax2 : UInt64 := 16383
def varintMax4 : UInt64 := 1073741823
def varintMax8 : UInt64 := 4611686018427387903

def errVarintTruncated : CoreError := .op "levin" (text "truncated varint")

def packVarint (v : UInt64) : Bytes :=
  if v ≤ varintMax1 then
    [((v <<< 2) ||| varintMark1.toUInt64).toUInt8]
  else if v ≤ varintMax2 then
    leBytes 2 ((v <<< 2) ||| varintMark2.toUInt64).toUInt16.toNat
  else if v ≤ varintMax4 then
    leBytes 4 ((v <<< 2) ||| varintMark4.toUInt64).toUInt32.toNat
  else
    -- the two high bits of a value above `varintMax8` are shifted out
    leBytes 8 ((v <<< 2) ||| varintMark8.toUInt64).toNat

def unpackWide (buf : Bytes) (width : ℕ) : Outcome CoreError (UInt64 × ℕ) :=
  if buf.length < width then .failed errVarintTruncated
  else do
    let raw ← slice buf 0 width
    return (UInt64.ofNat (leNat raw) >>> 2, width)

def unpackVarint (buf : Bytes) : Outcome CoreError (UInt64 × ℕ) :=
  if buf.length = 0 then .failed errVarintTruncated
  else do
    let first ← index buf 0
    let mark := first &&& varintMask
    if mark = varintMark1 then return (first.toUInt64 >>> 2, 1)
    else if mark = varintMark2 then unpackWide buf 2
    else if mark = varintMark4 then unpackWide buf 4
    else if mark = varintMark8 then unpackWide buf 8
    else .failed errVarintTruncated

/-! ## Widths -/

inductive VarintWidth where
  | one | two | four | eight
  deriving DecidableEq, Repr

namespace VarintWidth

def size : VarintWidth → ℕ
  | one => 1 | two => 2 | four => 4 | eight => 8

def mark : VarintWidth → ℕ
  | one => 0 | two => 1 | four => 2 | eight => 3

def limit : VarintWidth → ℕ
  | one => 64 | two => 16384 | four => 1073741824 | eight => 4611686018427387904

def ofByte (first : UInt8) : VarintWidth :=
  match first.toNat % 4 with
  | 0 => one
  | 1 => two
  | 2 => four
  | _ => eight

/-- The width the source packs a value into. -/
def shortest (value : ℕ) : VarintWidth :=
  if value < 64 then one
  else if value < 16384 then two
  else if value < 1073741824 then four
  else eight

theorem pow_size (width : VarintWidth) : 256 ^ width.size = 4 * width.limit := by
  cases width <;> rfl

theorem mark_lt (width : VarintWidth) : width.mark < 4 := by
  cases width <;> decide

theorem size_pos (width : VarintWidth) : 1 ≤ width.size := by
  cases width <;> decide

theorem mark_ofByte (first : UInt8) : (ofByte first).mark = first.toNat % 4 := by
  have hcases : first.toNat % 4 = 0 ∨ first.toNat % 4 = 1 ∨
      first.toNat % 4 = 2 ∨ first.toNat % 4 = 3 := by
    omega
  unfold ofByte
  rcases hcases with hmod | hmod | hmod | hmod <;> rw [hmod] <;> rfl

theorem mark_injective : Function.Injective mark := by
  intro left right
  cases left <;> cases right <;> simp [mark]

theorem lt_limit_shortest {value : ℕ} (hvalue : value < eight.limit) :
    value < (shortest value).limit := by
  simp only [limit] at hvalue
  unfold shortest
  split_ifs <;> simpa [limit]

theorem size_shortest_le {value : ℕ} {width : VarintWidth}
    (hvalue : value < width.limit) : (shortest value).size ≤ width.size := by
  unfold shortest
  cases width <;> simp only [limit] at hvalue <;> split_ifs <;>
    simp only [size] <;> omega

theorem eq_of_size_eq {left right : VarintWidth}
    (hsize : left.size = right.size) : left = right := by
  cases left <;> cases right <;> simp_all [size]

end VarintWidth

/-! ## Texts of a varint -/

/-- The bytes spell the value.  A strict text uses the shortest width that can
hold it. -/
def VarintText (strict : Bool) (bytes : Bytes) (value : ℕ) : Prop :=
  ∃ width : VarintWidth, bytes.length = width.size ∧
    leNat bytes = 4 * value + width.mark ∧
    (strict = true → ∀ other : VarintWidth, value < other.limit →
      width.size ≤ other.size)

namespace VarintText

variable {strict : Bool} {bytes : Bytes} {value : ℕ}

theorem weaken (htext : VarintText strict bytes value) :
    VarintText false bytes value := by
  obtain ⟨width, hlength, hvalue, -⟩ := htext
  exact ⟨width, hlength, hvalue, by simp⟩

theorem length_pos (htext : VarintText strict bytes value) :
    1 ≤ bytes.length := by
  obtain ⟨width, hlength, -⟩ := htext
  rw [hlength]
  exact width.size_pos

theorem lt_limit {width : VarintWidth} (hlength : bytes.length = width.size)
    (hvalue : leNat bytes = 4 * value + width.mark) :
    value < width.limit := by
  have hbound := leNat_lt bytes
  rw [hlength, width.pow_size] at hbound
  omega

theorem value_lt (htext : VarintText strict bytes value) :
    value < VarintWidth.eight.limit := by
  obtain ⟨width, hlength, hvalue, -⟩ := htext
  have hlimit := lt_limit hlength hvalue
  cases width <;> simp only [VarintWidth.limit] at hlimit ⊢ <;> omega

theorem shortest (hvalue : value < VarintWidth.eight.limit) :
    VarintText true
      (leBytes (VarintWidth.shortest value).size
        (4 * value + (VarintWidth.shortest value).mark)) value := by
  have hlimit := VarintWidth.lt_limit_shortest hvalue
  have hmark := (VarintWidth.shortest value).mark_lt
  refine ⟨VarintWidth.shortest value, by simp, ?_, ?_⟩
  · apply leNat_leBytes_of_lt
    rw [VarintWidth.pow_size]
    omega
  · exact fun _ other hother => VarintWidth.size_shortest_le hother

theorem eq_shortest (htext : VarintText true bytes value) :
    bytes = leBytes (VarintWidth.shortest value).size
      (4 * value + (VarintWidth.shortest value).mark) := by
  have hlimit := VarintWidth.lt_limit_shortest htext.value_lt
  obtain ⟨width, hlength, hvalue, hstrict⟩ := htext
  have hwidth : width = VarintWidth.shortest value := by
    apply VarintWidth.eq_of_size_eq
    exact le_antisymm (hstrict rfl _ hlimit)
      (VarintWidth.size_shortest_le (lt_limit hlength hvalue))
  rw [← hwidth, ← hvalue, ← hlength, leBytes_leNat]

theorem exists_shorter (htext : VarintText strict bytes value)
    {smaller : ℕ} (hsmaller : smaller ≤ value) :
    ∃ bytes', VarintText true bytes' smaller ∧
      bytes'.length ≤ bytes.length := by
  have hlimit := htext.value_lt
  refine ⟨_, shortest (hsmaller.trans_lt hlimit), ?_⟩
  obtain ⟨width, hlength, hvalue, -⟩ := htext
  rw [length_leBytes, hlength]
  apply VarintWidth.size_shortest_le
  exact hsmaller.trans_lt (lt_limit hlength hvalue)

end VarintText

/-! ## Packing -/

theorem toNat_shiftLeft_two_or {v mark : UInt64}
    (hv : v.toNat < VarintWidth.eight.limit) (hmark : mark.toNat < 4) :
    ((v <<< 2) ||| mark).toNat = 4 * v.toNat + mark.toNat := by
  simp only [VarintWidth.limit] at hv
  have hshift : (v <<< 2).toNat = v.toNat <<< 2 := by
    rw [UInt64.toNat_shiftLeft, Nat.mod_eq_of_lt]
    · rfl
    · change v.toNat <<< 2 < 2 ^ 64
      rw [Nat.shiftLeft_eq]
      omega
  rw [UInt64.toNat_or, hshift, ← Nat.shiftLeft_add_eq_or_of_lt (by simpa),
    Nat.shiftLeft_eq]
  omega

theorem packVarint_eq {value : ℕ} (hvalue : value < VarintWidth.eight.limit) :
    packVarint (UInt64.ofNat value) =
      leBytes (VarintWidth.shortest value).size
        (4 * value + (VarintWidth.shortest value).mark) := by
  have hnat : (UInt64.ofNat value).toNat = value := by
    simp only [VarintWidth.limit] at hvalue
    rw [UInt64.toNat_ofNat', Nat.mod_eq_of_lt]
    omega
  have hpack : ∀ mark : UInt64, mark.toNat < 4 →
      ((UInt64.ofNat value <<< 2) ||| mark).toNat =
        4 * value + mark.toNat := by
    intro mark hmark
    rw [toNat_shiftLeft_two_or (by rwa [hnat]) hmark, hnat]
  simp only [VarintWidth.limit] at hvalue
  unfold packVarint VarintWidth.shortest
  simp only [UInt64.le_iff_toNat_le, hnat, varintMax1, varintMax2, varintMax4,
    UInt64.toNat_ofNat, ← Nat.lt_succ_iff]
  norm_num only
  split_ifs with hone htwo hfour
  · have hraw := hpack varintMark1.toUInt64 (by decide)
    change [UInt8.ofNat ((UInt64.ofNat value <<< 2) |||
      varintMark1.toUInt64).toNat] = _
    rw [hraw]
    rfl
  · have hraw := hpack varintMark2.toUInt64 (by decide)
    rw [UInt64.toNat_toUInt16, hraw, Nat.mod_eq_of_lt (by simp [varintMark2]; omega)]
    rfl
  · have hraw := hpack varintMark4.toUInt64 (by decide)
    rw [UInt64.toNat_toUInt32, hraw, Nat.mod_eq_of_lt (by simp [varintMark4]; omega)]
    rfl
  · exact congrArg (leBytes 8) (hpack varintMark8.toUInt64 (by decide))

/-! ## Unpacking -/

theorem leNat_cons_mod_four (first : UInt8) (rest : Bytes) :
    leNat (first :: rest) % 4 = first.toNat % 4 := by
  rw [leNat]
  omega

theorem and_varintMask_eq_iff (first mark : UInt8) :
    first &&& varintMask = mark ↔ first.toNat % 4 = mark.toNat := by
  have hmask : (first &&& varintMask).toNat = first.toNat % 4 := by
    rw [UInt8.toNat_and]
    exact Nat.and_two_pow_sub_one_eq_mod first.toNat 2
  rw [← UInt8.toNat_inj, hmask]

theorem shiftRight_two_ofNat {n : ℕ} (hn : n < 2 ^ 64) :
    UInt64.ofNat n >>> 2 = UInt64.ofNat (n / 4) := by
  have hnat : (UInt64.ofNat n).toNat = n := by
    rw [UInt64.toNat_ofNat', Nat.mod_eq_of_lt hn]
  have hquotient : (UInt64.ofNat (n / 4)).toNat = n / 4 := by
    rw [UInt64.toNat_ofNat', Nat.mod_eq_of_lt (by omega)]
  apply UInt64.toNat_inj.mp
  rw [UInt64.toNat_shiftRight, hnat, hquotient]
  change n >>> 2 = n / 4
  rw [Nat.shiftRight_eq_div_pow]

theorem unpackWide_eq (buf : Bytes) (width : VarintWidth) :
    unpackWide buf width.size =
      if buf.length < width.size then .failed errVarintTruncated
      else .returned
        (UInt64.ofNat (leNat (buf.take width.size) / 4), width.size) := by
  unfold unpackWide
  split_ifs with hshort
  · rfl
  · have hlt := leNat_lt (buf.take width.size)
    have hsize : (buf.take width.size).length = width.size := by
      rw [List.length_take]
      omega
    rw [hsize, width.pow_size] at hlt
    have hlimit : width.limit ≤ 2 ^ 62 := by cases width <;> decide
    rw [slice, if_pos (by omega)]
    simp [shiftRight_two_ofNat (show leNat (buf.take width.size) < 2 ^ 64 by
      omega)]

/-- The unpacking switch as one case: the first byte fixes the width. -/
theorem unpackVarint_cons (first : UInt8) (rest : Bytes) :
    unpackVarint (first :: rest) =
      unpackWide (first :: rest) (VarintWidth.ofByte first).size := by
  have hcases : first.toNat % 4 = 0 ∨ first.toNat % 4 = 1 ∨
      first.toNat % 4 = 2 ∨ first.toNat % 4 = 3 := by
    omega
  have hindex : (index (first :: rest) 0 : Outcome CoreError UInt8) =
      .returned first := rfl
  unfold unpackVarint VarintWidth.ofByte
  simp only [List.length_cons, Nat.succ_ne_zero, if_false, hindex,
    Outcome.returned_bind, and_varintMask_eq_iff]
  rcases hcases with hmod | hmod | hmod | hmod <;>
    simp only [hmod, varintMark1, varintMark2, varintMark4, varintMark8,
      VarintWidth.size, UInt8.reduceToNat, reduceIte, zero_ne_one,
      OfNat.ofNat_ne_zero, OfNat.zero_ne_ofNat, Nat.reduceEqDiff]
  simp [unpackWide, slice, leNat]

def varintFormat : Format UInt64 where
  texts bytes value := VarintText false bytes value.toNat
  asks _ _ := False

/-- The first byte of an input fixes the width of every text which the input
begins with. -/
theorem VarintText.width_of_prefix
    {strict : Bool} {first : UInt8} {rest part tail : Bytes} {value : ℕ}
    (hsplit : first :: rest = part ++ tail)
    (htext : VarintText strict part value) :
    part.length = (VarintWidth.ofByte first).size ∧
      leNat part = 4 * value + (VarintWidth.ofByte first).mark := by
  obtain ⟨width, hlength, hvalue, -⟩ := htext
  have hwidth : width = VarintWidth.ofByte first := by
    apply VarintWidth.mark_injective
    have hpos := width.size_pos
    have hmark := width.mark_lt
    rw [VarintWidth.mark_ofByte]
    cases part with
    | nil =>
        simp only [List.length_nil] at hlength
        omega
    | cons head part =>
        obtain ⟨rfl, -⟩ := List.cons.inj hsplit
        have hmod := leNat_cons_mod_four first part
        omega
  rw [← hwidth]
  exact ⟨hlength, hvalue⟩

/-- An input long enough for the width its first byte marks begins with a
text of that width. -/
theorem VarintText.exists_of_size_le
    {first : UInt8} {rest : Bytes}
    (hsize : (VarintWidth.ofByte first).size ≤ (first :: rest).length) :
    ∃ part tail, first :: rest = part ++ tail ∧
      (first :: rest).take (VarintWidth.ofByte first).size = part ∧
      part.length = (VarintWidth.ofByte first).size ∧
      VarintText false part (leNat part / 4) := by
  obtain ⟨size, hwidth⟩ : ∃ size, (VarintWidth.ofByte first).size = size + 1 :=
    ⟨_, (Nat.sub_add_cancel (VarintWidth.ofByte first).size_pos).symm⟩
  have hlength : (first :: rest.take size).length =
      (VarintWidth.ofByte first).size := by
    simp only [List.length_cons, List.length_take] at hsize ⊢
    omega
  refine ⟨first :: rest.take size, rest.drop size, by simp, ?_, hlength, ?_⟩
  · rw [hwidth, List.take_succ_cons]
  · have hmod := leNat_cons_mod_four first (rest.take size)
    have hmark := VarintWidth.mark_ofByte first
    exact ⟨VarintWidth.ofByte first, hlength, by omega, by simp⟩

theorem varint_decodes (rest : Bytes) :
    Decodes rest 0 1 varintFormat (Traced.lift (unpackVarint rest)) := by
  cases rest with
  | nil =>
      refine Decodes.fail errVarintTruncated ?_ (fun _ hnone => hnone)
      intro part tail value hnil htext
      have hpos := VarintText.length_pos htext
      obtain ⟨rfl, -⟩ := List.append_eq_nil_iff.mp hnil.symm
      simp at hpos
  | cons first rest =>
      rw [unpackVarint_cons, unpackWide_eq]
      split_ifs with hshort
      · refine Decodes.fail errVarintTruncated ?_ (fun _ hnone => hnone)
        intro part tail value hsplit htext
        have hlength := (VarintText.width_of_prefix hsplit htext).1
        have htotal := congrArg List.length hsplit
        rw [List.length_append] at htotal
        omega
      · obtain ⟨part, tail, hsplit, hpart, hsize, htext⟩ :=
          VarintText.exists_of_size_le (Nat.le_of_not_lt hshort)
        have hlimit := htext.value_lt
        simp only [VarintWidth.limit] at hlimit
        have hnat : (UInt64.ofNat (leNat part / 4)).toNat = leNat part / 4 := by
          rw [UInt64.toNat_ofNat', Nat.mod_eq_of_lt (by omega)]
        have hdecodes : Decodes (first :: rest) 0 part.length varintFormat
            (pure (UInt64.ofNat (leNat part / 4), 0 + part.length) :
              Traced DecodeEvent CoreError (UInt64 × ℕ)) := by
          refine Decodes.exact hsplit ?_ ?_ (fun _ hnone => hnone)
          · change VarintText false part _
            rwa [hnat]
          · intro value part' tail' hsplit' htext'
            obtain ⟨hlength, hvalue⟩ :=
              VarintText.width_of_prefix hsplit' htext'
            obtain ⟨rfl, -⟩ := List.append_inj (hsplit'.symm.trans hsplit)
              (hlength.trans hsize.symm)
            refine ⟨?_, rfl⟩
            apply UInt64.toNat_inj.mp
            have hmark := (VarintWidth.ofByte first).mark_lt
            rw [hnat]
            omega
        rw [Nat.zero_add] at hdecodes
        rw [hpart, ← hsize]
        exact hdecodes.of_lead_le htext.length_pos

end GoP2P.Levin
