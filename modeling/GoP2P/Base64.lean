import GoP2P.Bytes

/-!
# Base64

The standard encoding with padding.  The decoder skips line breaks and does not
look at the bits that the last character has to spare, as `base64.StdEncoding`
does; it reads back what the encoder writes.
-/

namespace GoP2P.Base64

def alphabet : List Char :=
  ['A', 'B', 'C', 'D', 'E', 'F', 'G', 'H', 'I', 'J', 'K', 'L', 'M',
    'N', 'O', 'P', 'Q', 'R', 'S', 'T', 'U', 'V', 'W', 'X', 'Y', 'Z',
    'a', 'b', 'c', 'd', 'e', 'f', 'g', 'h', 'i', 'j', 'k', 'l', 'm',
    'n', 'o', 'p', 'q', 'r', 's', 't', 'u', 'v', 'w', 'x', 'y', 'z',
    '0', '1', '2', '3', '4', '5', '6', '7', '8', '9', '+', '/']

def padding : Char := '='

/-- The character for the lowest six bits. -/
def digit (n : ℕ) : Char := alphabet.getD (n % 64) padding

def digitValue (c : Char) : Option ℕ :=
  if c ∈ alphabet then some (alphabet.idxOf c) else none

def encode : Bytes → List Char
  | a :: b :: c :: rest =>
      let v := (a.toNat * 256 + b.toNat) * 256 + c.toNat
      digit (v / 262144) :: digit (v / 4096) :: digit (v / 64) :: digit v ::
        encode rest
  | [a, b] =>
      let v := a.toNat * 256 + b.toNat
      [digit (v / 1024), digit (v / 16), digit (v * 4), padding]
  | [a] => [digit (a.toNat / 4), digit (a.toNat * 16), padding, padding]
  | [] => []

/-- The value of some characters, the first being the highest. -/
def value (content : List Char) : Option ℕ :=
  content.foldlM (fun v c => (digitValue c).map (v * 64 + ·)) 0

/-- Four characters at a time; only the last four may be padded. -/
def decodeQuanta : List Char → Option Bytes
  | [] => some []
  | a :: b :: c :: d :: rest =>
      if rest = [] ∧ d = padding then
        if c = padding then
          (value [a, b]).map fun v => [.ofNat (v / 16)]
        else
          (value [a, b, c]).map fun v => [.ofNat (v / 1024), .ofNat (v / 4)]
      else do
        let v ← value [a, b, c, d]
        let later ← decodeQuanta rest
        pure (.ofNat (v / 65536) :: .ofNat (v / 256) :: .ofNat v :: later)
  | _ => none

def isLineBreak (c : Char) : Bool := c = '\n' || c = '\r'

def decode (content : List Char) : Option Bytes :=
  decodeQuanta (content.filter fun c => !isLineBreak c)

/-! ### Characters -/

theorem digit_spec (n : ℕ) :
    digit n ∈ alphabet ∧ digitValue (digit n) = some (n % 64) := by
  have hall : ∀ k : Fin 64, digit k ∈ alphabet ∧
      digitValue (digit k) = some k.val := by decide +kernel
  have hlt : n % 64 < 64 := Nat.mod_lt n (by decide)
  have hdigit : digit n = digit (n % 64) := by
    rw [digit, digit, Nat.mod_mod]
  rw [hdigit]
  exact hall ⟨n % 64, hlt⟩

theorem digit_mem (n : ℕ) : digit n ∈ alphabet := (digit_spec n).1

theorem digitValue_digit (n : ℕ) : digitValue (digit n) = some (n % 64) :=
  (digit_spec n).2

theorem digit_ne_padding (n : ℕ) : digit n ≠ padding := by
  intro hsame
  have hmem := digit_mem n
  rw [hsame] at hmem
  revert hmem
  decide

theorem mem_encode {c : Char} : ∀ {data : Bytes}, c ∈ encode data →
    c ∈ alphabet ∨ c = padding := by
  intro data
  induction data using encode.induct with
  | case1 a b c rest ih =>
      intro hmem
      simp only [encode, List.mem_cons] at hmem
      rcases hmem with rfl | rfl | rfl | rfl | hmem
      · exact .inl (digit_mem _)
      · exact .inl (digit_mem _)
      · exact .inl (digit_mem _)
      · exact .inl (digit_mem _)
      · exact ih hmem
  | case2 a b =>
      intro hmem
      simp only [encode, List.mem_cons, List.not_mem_nil, or_false] at hmem
      rcases hmem with rfl | rfl | rfl | rfl
      · exact .inl (digit_mem _)
      · exact .inl (digit_mem _)
      · exact .inl (digit_mem _)
      · exact .inr rfl
  | case3 a =>
      intro hmem
      simp only [encode, List.mem_cons, List.not_mem_nil, or_false] at hmem
      rcases hmem with rfl | rfl | rfl | rfl
      · exact .inl (digit_mem _)
      · exact .inl (digit_mem _)
      · exact .inr rfl
      · exact .inr rfl
  | case4 =>
      intro hmem
      cases hmem

theorem notMem_encode {c : Char} (halphabet : c ∉ alphabet)
    (hpadding : c ≠ padding) (data : Bytes) : c ∉ encode data :=
  fun hmem => (mem_encode hmem).elim halphabet hpadding

/-! ### Reading back -/

theorem value_two (x y : ℕ) :
    value [digit x, digit y] = some (x % 64 * 64 + y % 64) := by
  simp [value, digitValue_digit]

theorem value_three (x y z : ℕ) :
    value [digit x, digit y, digit z] =
      some ((x % 64 * 64 + y % 64) * 64 + z % 64) := by
  simp [value, digitValue_digit]

theorem value_four (x y z w : ℕ) :
    value [digit x, digit y, digit z, digit w] =
      some (((x % 64 * 64 + y % 64) * 64 + z % 64) * 64 + w % 64) := by
  simp [value, digitValue_digit]

theorem ofNat_eq_of_mod {n : ℕ} {byte : UInt8} (hn : n % 256 = byte.toNat) :
    UInt8.ofNat n = byte := by
  rw [← UInt8.toNat_inj, UInt8.toNat_ofNat']
  exact hn

theorem decodeQuanta_encode (data : Bytes) :
    decodeQuanta (encode data) = some data := by
  induction data using encode.induct with
  | case1 a b c rest ih =>
      have ha := a.toNat_lt
      have hb := b.toNat_lt
      have hc := c.toNat_lt
      rw [encode, decodeQuanta, if_neg fun h => digit_ne_padding _ h.2,
        value_four, ih]
      simp only [Option.bind_eq_bind, Option.bind_some, Option.pure_def,
        Option.some.injEq, List.cons.injEq, and_true]
      refine ⟨ofNat_eq_of_mod ?_, ofNat_eq_of_mod ?_, ofNat_eq_of_mod ?_⟩ <;>
        omega
  | case2 a b =>
      have ha := a.toNat_lt
      have hb := b.toNat_lt
      rw [encode, decodeQuanta, if_pos ⟨rfl, rfl⟩,
        if_neg (digit_ne_padding _), value_three]
      simp only [Option.map_some, Option.some.injEq, List.cons.injEq, and_true]
      refine ⟨ofNat_eq_of_mod ?_, ofNat_eq_of_mod ?_⟩ <;> omega
  | case3 a =>
      have ha := a.toNat_lt
      rw [encode, decodeQuanta, if_pos ⟨rfl, rfl⟩, if_pos rfl, value_two]
      simp only [Option.map_some, Option.some.injEq, List.cons.injEq, and_true]
      exact ofNat_eq_of_mod (by omega)
  | case4 => rfl

theorem decode_encode (data : Bytes) : decode (encode data) = some data := by
  have hkept : (encode data).filter (fun c => !isLineBreak c) =
      encode data := by
    rw [List.filter_eq_self]
    intro c hc
    by_contra hbreak
    have hcases : isLineBreak c = true := by simpa using hbreak
    simp only [isLineBreak, Bool.or_eq_true, decide_eq_true_eq] at hcases
    rcases hcases with rfl | rfl
    · exact notMem_encode (by decide) (by decide) data hc
    · exact notMem_encode (by decide) (by decide) data hc
  rw [decode, hkept, decodeQuanta_encode]

example : encode (text "Man!") = "TWFuIQ==".toList := by decide

end GoP2P.Base64
