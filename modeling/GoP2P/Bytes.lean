import GoP2P.Traced
import Mathlib.Data.List.Lex

/-!
# Byte strings

Byte order, the little- and big-endian readings of a byte string, and the
bounds-checked accesses `buf[i]` and `buf[lo:hi]`.  An access outside the
slice panics here as it does at run time, so that the absence of such accesses
is a theorem about the model and not a feature of it.
-/

namespace GoP2P

abbrev Bytes := List UInt8

/-- The bytes of a source string literal, all of whose characters are ASCII. -/
def text (literal : String) : Bytes :=
  literal.toList.map fun c => UInt8.ofNat c.toNat

instance byteLinearOrder : LinearOrder UInt8 where
  le_refl := UInt8.le_refl
  le_trans _ _ _ := UInt8.le_trans
  lt_iff_le_not_ge a b := by
    simp only [UInt8.le_iff_toNat_le, UInt8.lt_iff_toNat_lt]
    omega
  le_antisymm _ _ := UInt8.le_antisymm
  le_total := UInt8.le_total
  toDecidableLE := inferInstance
  toDecidableLT := inferInstance
  toDecidableEq := inferInstance

instance decidableForallByte {p : UInt8 → Prop} [DecidablePred p] :
    Decidable (∀ byte, p byte) :=
  decidable_of_iff (∀ bits : BitVec 8, p (UInt8.ofBitVec bits))
    ⟨fun hall byte => hall byte.toBitVec, fun hall _ => hall _⟩

/-! ## Endianness -/

def leBytes : ℕ → ℕ → Bytes
  | 0, _ => []
  | width + 1, n => UInt8.ofNat n :: leBytes width (n / 256)

def leNat : Bytes → ℕ
  | [] => 0
  | byte :: rest => byte.toNat + 256 * leNat rest

def beBytes (width n : ℕ) : Bytes := (leBytes width n).reverse

def beNat (bytes : Bytes) : ℕ := leNat bytes.reverse

/-- `hex.EncodeToString`: two lowercase digits for each byte. -/
def hexEncode (bytes : Bytes) : Bytes :=
  bytes.flatMap fun byte =>
    [byte.toNat / 16, byte.toNat % 16].map fun digit =>
      UInt8.ofNat (Nat.digitChar digit).toNat

@[simp] theorem length_leBytes (width n : ℕ) :
    (leBytes width n).length = width := by
  induction width generalizing n with
  | zero => rfl
  | succ width ih => simp [leBytes, ih]

theorem leNat_lt (bytes : Bytes) : leNat bytes < 256 ^ bytes.length := by
  induction bytes with
  | nil => simp [leNat]
  | cons byte rest ih =>
      have hbyte := byte.toNat_lt
      simp only [leNat, List.length_cons, pow_succ]
      omega

theorem leNat_leBytes (width n : ℕ) :
    leNat (leBytes width n) = n % 256 ^ width := by
  induction width generalizing n with
  | zero => simp [leBytes, leNat, Nat.mod_one]
  | succ width ih =>
      have hsplit : n % 256 ^ (width + 1) =
          n % 256 + 256 * (n / 256 % 256 ^ width) := by
        rw [pow_succ, mul_comm, Nat.mod_mul]
      simp [leBytes, leNat, ih, hsplit]

theorem leNat_leBytes_of_lt {width n : ℕ} (hn : n < 256 ^ width) :
    leNat (leBytes width n) = n := by
  rw [leNat_leBytes, Nat.mod_eq_of_lt hn]

theorem leBytes_leNat (bytes : Bytes) :
    leBytes bytes.length (leNat bytes) = bytes := by
  induction bytes with
  | nil => rfl
  | cons byte rest ih =>
      have hbyte := byte.toNat_lt
      have hhead : UInt8.ofNat (byte.toNat + 256 * leNat rest) = byte := by
        apply UInt8.toNat_inj.mp
        simp only [UInt8.toNat_ofNat']
        omega
      have htail : (byte.toNat + 256 * leNat rest) / 256 = leNat rest := by
        omega
      simp [leBytes, leNat, hhead, htail, ih]

@[simp] theorem length_beBytes (width n : ℕ) :
    (beBytes width n).length = width := by
  simp [beBytes]

theorem beNat_beBytes_of_lt {width n : ℕ} (hn : n < 256 ^ width) :
    beNat (beBytes width n) = n := by
  simp [beNat, beBytes, leNat_leBytes_of_lt hn]

theorem beBytes_beNat (bytes : Bytes) :
    beBytes bytes.length (beNat bytes) = bytes := by
  have hreverse := leBytes_leNat bytes.reverse
  rw [List.length_reverse] at hreverse
  simp [beBytes, beNat, hreverse]

theorem beNat_lt (bytes : Bytes) : beNat bytes < 256 ^ bytes.length := by
  simpa [beNat] using leNat_lt bytes.reverse

/-! ## Bounds-checked access -/

section Access

variable {ε : Type*}

def index (buf : Bytes) (position : ℕ) : Outcome ε UInt8 :=
  match buf[position]? with
  | some byte => .returned byte
  | none => .panicked

def slice (buf : Bytes) (lo hi : ℕ) : Outcome ε Bytes :=
  if lo ≤ hi ∧ hi ≤ buf.length then
    .returned ((buf.drop lo).take (hi - lo))
  else .panicked

theorem index_of_drop_eq
    {buf rest : Bytes} {position : ℕ} {byte : UInt8}
    (hdrop : buf.drop position = byte :: rest) :
    (index buf position : Outcome ε UInt8) = .returned byte := by
  have hget : buf[position]? = some byte := by
    rw [← List.head?_drop, hdrop, List.head?_cons]
  simp [index, hget]

theorem slice_of_drop_eq
    {buf part rest : Bytes} {position : ℕ}
    (hposition : position ≤ buf.length)
    (hdrop : buf.drop position = part ++ rest) :
    (slice buf position (position + part.length) : Outcome ε Bytes) =
      .returned part := by
  have hlength : buf.length - position = part.length + rest.length := by
    simpa using congrArg List.length hdrop
  have hbounds : position ≤ position + part.length ∧
      position + part.length ≤ buf.length := by
    omega
  rw [slice, if_pos hbounds, hdrop]
  simp

end Access

end GoP2P
