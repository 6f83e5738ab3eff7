import GoP2P.Binary64
import GoP2P.Json
import Mathlib.Data.List.TakeWhile

/-!
# Numbers in JSON texts

Integers are written in decimal and read back as what they are.  A number that
is read as a float and printed again is another matter: the text that comes out
is that of the nearest float.  `FloatPrinter` says what is needed of a printer;
the one that prints the shortest decimal is an instance.
-/

namespace GoP2P

open Binary64

/-! ## Integers in decimal -/

def decimal (n : ℤ) : List Char :=
  if n < 0 then '-' :: Nat.toDigits 10 n.natAbs else Nat.toDigits 10 n.natAbs

theorem isDigit_of_mem_toDigits {n : ℕ} :
    ∀ c ∈ Nat.toDigits 10 n, c.isDigit = true :=
  fun _ hc => Nat.isDigit_of_mem_toDigits (by decide) (by decide) hc

theorem isDigits_toDigits (n : ℕ) : isDigits (Nat.toDigits 10 n) = true := by
  rw [isDigits, Bool.and_eq_true, List.all_eq_true]
  refine ⟨?_, isDigit_of_mem_toDigits⟩
  simp [Nat.toDigits_ne_nil]

/-- The first digit of a positive number is not zero. -/
theorem exists_toDigits_eq_cons {n : ℕ} (hn : 0 < n) :
    ∃ c rest, Nat.toDigits 10 n = c :: rest ∧ c ≠ '0' := by
  induction n using Nat.strong_induction_on with
  | _ n ih =>
      rw [Nat.toDigits_eq_if (by decide)]
      split_ifs with hlt
      · refine ⟨_, [], rfl, ?_⟩
        rw [ne_eq, Nat.digitChar_eq_zero]
        omega
      · obtain ⟨c, rest, hdigits, hc⟩ :=
          ih (n / 10) (Nat.div_lt_self hn (by decide)) (by omega)
        exact ⟨c, _, by rw [hdigits, List.cons_append], hc⟩

theorem isUnsignedNumber_toDigits (n : ℕ) :
    isUnsignedNumber (Nat.toDigits 10 n) = true := by
  rcases Nat.eq_zero_or_pos n with rfl | hn
  · rw [Nat.toDigits_zero]
    rfl
  · obtain ⟨c, rest, hdigits, hc⟩ := exists_toDigits_eq_cons hn
    have hall : ∀ d ∈ c :: rest, d.isDigit = true := by
      rw [← hdigits]
      exact isDigit_of_mem_toDigits
    have hdrop : rest.dropWhile Char.isDigit = [] := by
      rw [List.dropWhile_eq_nil_iff]
      exact fun d hd => hall d (List.mem_cons_of_mem c hd)
    rw [hdigits]
    unfold isUnsignedNumber
    split
    next heq => cases heq
    next heq =>
      cases heq
      exact absurd rfl hc
    next heq =>
      cases heq
      rw [hall _ List.mem_cons_self, hdrop]
      rfl

theorem head_toDigits_ne_minus (n : ℕ) (rest : List Char) :
    Nat.toDigits 10 n ≠ '-' :: rest := by
  intro heq
  have hdigit := isDigit_of_mem_toDigits (n := n) '-' (by simp [heq])
  cases hdigit

theorem isNumber_decimal (n : ℤ) : isNumber (decimal n) = true := by
  unfold decimal
  split_ifs
  · exact isUnsignedNumber_toDigits n.natAbs
  · unfold isNumber
    split
    next heq => exact absurd heq (head_toDigits_ne_minus _ _)
    next => exact isUnsignedNumber_toDigits n.natAbs

def NumberLiteral.ofInt (n : ℤ) : NumberLiteral := ⟨decimal n, isNumber_decimal n⟩

/-- `strconv.ParseInt` in base 10, without its bound. -/
def parseInt : List Char → Option ℤ
  | '-' :: digits =>
      if isDigits digits then some (-(Nat.ofDigitChars 10 digits 0)) else none
  | digits =>
      if isDigits digits then some (Nat.ofDigitChars 10 digits 0) else none

theorem parseInt_decimal (n : ℤ) : parseInt (decimal n) = some n := by
  unfold decimal
  split_ifs with hneg
  · rw [parseInt, if_pos (isDigits_toDigits _), Nat.ofDigitChars_ten_toDigits]
    congr 1
    omega
  · unfold parseInt
    split
    next heq => exact absurd heq (head_toDigits_ne_minus _ _)
    next =>
      rw [if_pos (isDigits_toDigits _), Nat.ofDigitChars_ten_toDigits]
      congr 1
      omega

def InInt64 (n : ℤ) : Prop := -2 ^ 63 ≤ n ∧ n < 2 ^ 63

instance (n : ℤ) : Decidable (InInt64 n) :=
  inferInstanceAs (Decidable (_ ∧ _))

/-- A number that is decoded into an `int64` is an integer within its range. -/
def NumberLiteral.toInt64? (literal : NumberLiteral) : Option ℤ :=
  (parseInt literal.content).filter (InInt64 ·)

theorem toInt64?_ofInt (n : ℤ) :
    (NumberLiteral.ofInt n).toInt64? = if InInt64 n then some n else none := by
  unfold NumberLiteral.toInt64? NumberLiteral.ofInt
  rw [parseInt_decimal, Option.filter_some]
  simp only [decide_eq_true_eq]

/-! ## Floats -/

/-- What becomes of a number that is decoded into a float64 and printed.
`reprint` is this on texts, without a value for a number that is out of range;
`print` is the integer that is printed for a float with an integer value. -/
structure FloatPrinter where
  reprint : NumberLiteral → Option NumberLiteral
  print : ℤ → ℤ
  reprint_reprint : ∀ literal printed, reprint literal = some printed →
    reprint printed = some printed
  /-- What is printed reads as the same float. -/
  nearest_print : ∀ n, nearest 53 (print (nearest 53 n)) = nearest 53 n
  /-- Below `10 ^ 21` no exponent is printed. -/
  reprint_ofInt : ∀ n, (nearest 53 n).natAbs < 10 ^ 21 →
    reprint (.ofInt n) = some (.ofInt (print (nearest 53 n)))

namespace FloatPrinter

variable (printer : FloatPrinter)

/-- What an integer becomes when it passes through a float. -/
def carry (n : ℤ) : ℤ := printer.print (nearest 53 n)

variable {printer}

theorem natAbs_nearest_lt {n : ℤ} (hn : InInt64 n) :
    (nearest 53 n).natAbs < 10 ^ 21 := by
  have hexact : Exact 53 (2 ^ 63) := ⟨1, 63, by decide, by decide⟩
  have hle := natAbs_nearest_le (p := 53) (by decide) hexact
    (show n.natAbs ≤ ((2 : ℤ) ^ 63).natAbs by
      unfold InInt64 at hn
      omega)
  exact hle.trans_lt (by decide)

theorem reprint_ofInt_of_inInt64 {n : ℤ} (hn : InInt64 n) :
    printer.reprint (.ofInt n) = some (.ofInt (printer.carry n)) :=
  printer.reprint_ofInt n (natAbs_nearest_lt hn)

/-- Below `2 ^ 53` every printer prints the integer itself. -/
theorem carry_eq_self_of_lt {n : ℤ} (hn : n.natAbs < 2 ^ 53) :
    printer.carry n = n := by
  have hsame : nearest 53 n = n :=
    (nearest_eq_self_iff (by decide) n).mpr ⟨n.natAbs, 0, hn, by simp⟩
  apply eq_of_nearest_eq (p := 53) (by decide) hn
  unfold carry
  rw [printer.nearest_print, hsame]

end FloatPrinter

/-! ### The shortest decimal -/

/-- A printer that changes integers only, given what it prints for them. -/
def FloatPrinter.ofPrint (print : ℤ → ℤ)
    (nearest_print : ∀ n, nearest 53 (print (nearest 53 n)) = nearest 53 n) :
    FloatPrinter where
  reprint literal :=
    match parseInt literal.content with
    | some n =>
        if (nearest 53 n).natAbs < 10 ^ 21 then
          some (.ofInt (print (nearest 53 n)))
        else some literal
    | none => some literal
  print := print
  nearest_print := nearest_print
  reprint_reprint literal printed hprinted := by
    cases hparse : parseInt literal.content with
    | none =>
        rw [hparse] at hprinted
        cases hprinted
        rw [hparse]
    | some n =>
        rw [hparse] at hprinted
        dsimp only at hprinted
        split_ifs at hprinted with hrange
        · cases hprinted
          dsimp only [NumberLiteral.ofInt]
          rw [parseInt_decimal]
          dsimp only
          rw [nearest_print, if_pos hrange]
        · cases hprinted
          rw [hparse]
          dsimp only
          rw [if_neg hrange]
  reprint_ofInt n hrange := by
    dsimp only [NumberLiteral.ofInt]
    rw [parseInt_decimal]
    dsimp only
    rw [if_pos hrange]

/-- The multiple of `10 ^ scale` that is printed for `n`: one next to it that
reads as `n`, and the closer one if both do. -/
def shortestAt (n scale : ℕ) : Option ℕ :=
  let below := n / 10 ^ scale * 10 ^ scale
  let above := below + 10 ^ scale
  let closer := roundedQuotient n (10 ^ scale) * 10 ^ scale
  if roundNat 53 below = n ∧ roundNat 53 above = n then
    if roundNat 53 closer = n then some closer else none
  else if roundNat 53 below = n then some below
  else if roundNat 53 above = n then some above
  else none

/-- As few digits as read back, for a float below `10 ^ 21`. -/
def shortest (n : ℕ) : ℕ :=
  ((List.range 21).reverse.findSome? (shortestAt n)).getD n

theorem roundNat_of_shortestAt {n scale printed : ℕ}
    (hprinted : shortestAt n scale = some printed) :
    roundNat 53 printed = n := by
  unfold shortestAt at hprinted
  dsimp only at hprinted
  split_ifs at hprinted with hboth hcloser hbelow habove
  · cases hprinted
    exact hcloser
  · cases hprinted
    exact hbelow
  · cases hprinted
    exact habove

theorem roundNat_shortest {n : ℕ} (hn : roundNat 53 n = n) :
    roundNat 53 (shortest n) = n := by
  unfold shortest
  cases hfound : (List.range 21).reverse.findSome? (shortestAt n) with
  | none => exact hn
  | some printed =>
      obtain ⟨scale, -, hscale⟩ := List.exists_of_findSome?_eq_some hfound
      exact roundNat_of_shortestAt hscale

/-- How `encoding/json` prints. -/
def shortestPrinter : FloatPrinter :=
  .ofPrint (fun n => n.sign * shortest n.natAbs) fun n =>
    nearest_sign_mul (by decide) (roundNat_shortest
      ((roundNat_eq_self_iff (by decide) _).mpr
        (exact_natAbs_iff.mpr (exact_nearest (by decide) n))))

/-- The float `2 ^ 60` is printed with other digits than it has. -/
example : shortestPrinter.carry (2 ^ 60) = 1152921504606847000 := by
  decide +kernel

end GoP2P
