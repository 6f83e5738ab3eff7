import Mathlib.Tactic

/-!
# Integers as floating-point numbers

A binary floating-point format with `p` significant bits holds the integers
`m * 2 ^ e` with `m < 2 ^ p`.  `nearest` is what an integer becomes in the
format: the closest such integer, and of two that are equally close the one
with the even significand.  The exponent is not bounded, so this is binary64
(`p = 53`) below `2 ^ 1023`.
-/

namespace GoP2P.Binary64

/-- The integer has `p` significant bits. -/
def Exact (p : ℕ) (n : ℤ) : Prop :=
  ∃ m e : ℕ, m < 2 ^ p ∧ n.natAbs = m * 2 ^ e

/-- The last place of the significand of `n`. -/
def ulp (p n : ℕ) : ℕ := 2 ^ (n.log2 + 1 - p)

/-- The quotient rounded to the nearest, and to the even one when the remainder
is a half. -/
def roundedQuotient (n unit : ℕ) : ℕ :=
  if 2 * (n % unit) < unit ∨ 2 * (n % unit) = unit ∧ n / unit % 2 = 0 then
    n / unit
  else n / unit + 1

def roundNat (p n : ℕ) : ℕ := roundedQuotient n (ulp p n) * ulp p n

def nearest (p : ℕ) (n : ℤ) : ℤ := n.sign * roundNat p n.natAbs

/-- The quotient of two naturals in the format, in units of `2 ^ -(scale + 1)`.
The last bit says whether the division left a remainder, which is all that
matters to the rounding once the quotient has more than `p` bits. -/
def nearestQuotient (p scale a b : ℕ) : ℕ :=
  roundNat p (2 * (a * 2 ^ scale / b) + if a * 2 ^ scale % b = 0 then 0 else 1)

/-! ### Rounding a quotient -/

theorem roundedQuotient_cases (n unit : ℕ) :
    (roundedQuotient n unit = n / unit ∧ 2 * (n % unit) ≤ unit) ∨
      (roundedQuotient n unit = n / unit + 1 ∧ unit ≤ 2 * (n % unit)) := by
  unfold roundedQuotient
  split_ifs with hdown
  · exact .inl ⟨rfl, by omega⟩
  · exact .inr ⟨rfl, by omega⟩

/-- No multiple of the unit is closer. -/
theorem roundedQuotient_closest {unit : ℕ} (hunit : 0 < unit) (n k : ℕ) :
    |(n : ℤ) - (roundedQuotient n unit * unit : ℕ)| ≤
      |(n : ℤ) - (k * unit : ℕ)| := by
  have hsplit := Nat.div_add_mod n unit
  have hlt := Nat.mod_lt n hunit
  rw [mul_comm] at hsplit
  have hbelow : k ≤ n / unit → k * unit ≤ n / unit * unit :=
    fun hk => Nat.mul_le_mul_right unit hk
  have habove : n / unit < k → n / unit * unit + unit ≤ k * unit := by
    intro hk
    rw [← Nat.succ_mul]
    exact Nat.mul_le_mul_right unit hk
  rcases roundedQuotient_cases n unit with ⟨hround, hhalf⟩ | ⟨hround, hhalf⟩
  · rw [hround, abs_of_nonneg (by omega)]
    rcases le_or_gt k (n / unit) with hk | hk
    · have hle := hbelow hk
      rw [abs_of_nonneg (by omega)]
      omega
    · have hle := habove hk
      rw [abs_of_nonpos (by omega)]
      omega
  · rw [hround, Nat.succ_mul, abs_of_nonpos (by omega)]
    rcases le_or_gt k (n / unit) with hk | hk
    · have hle := hbelow hk
      rw [abs_of_nonneg (by omega)]
      omega
    · have hle := habove hk
      rw [abs_of_nonpos (by omega)]
      omega

/-! ### Rounding a magnitude -/

section

variable {p : ℕ}

theorem ulp_pos (p n : ℕ) : 0 < ulp p n := Nat.two_pow_pos _

theorem lt_two_pow_mul_ulp (p n : ℕ) : n < 2 ^ p * ulp p n := by
  rw [ulp, ← pow_add]
  refine Nat.lt_log2_self.trans_le (Nat.pow_le_pow_right (by decide) ?_)
  omega

/-- Above the first places, the significand uses all of its bits. -/
theorem two_pow_mul_ulp_le {n : ℕ} (hp : 0 < p) (hulp : ulp p n ≠ 1) :
    2 ^ (p - 1) * ulp p n ≤ n := by
  have hlog : p < n.log2 + 1 := by
    by_contra hle
    apply hulp
    rw [ulp, Nat.sub_eq_zero_of_le (not_lt.mp hle), pow_zero]
  have hne : n ≠ 0 := by
    rintro rfl
    rw [Nat.log2_zero] at hlog
    omega
  rw [ulp, ← pow_add]
  refine le_trans (Nat.pow_le_pow_right (by decide) ?_) (Nat.log2_self_le hne)
  omega

theorem exact_roundNat (hp : 0 < p) (n : ℕ) : Exact p (roundNat p n) := by
  have hquotient : n / ulp p n < 2 ^ p := by
    rw [Nat.div_lt_iff_lt_mul (ulp_pos p n)]
    exact lt_two_pow_mul_ulp p n
  have hround : roundedQuotient n (ulp p n) ≤ 2 ^ p := by
    rcases roundedQuotient_cases n (ulp p n) with ⟨hround, -⟩ | ⟨hround, -⟩ <;>
      omega
  rcases Nat.lt_or_eq_of_le hround with hlt | heq
  · exact ⟨_, _, hlt, rfl⟩
  · -- the carry makes a significand of one bit, one place further up
    refine ⟨2 ^ (p - 1), n.log2 + 1 - p + 1, ?_, ?_⟩
    · exact Nat.pow_lt_pow_right (by decide) (by omega)
    · rw [Int.natAbs_natCast, roundNat, heq, ulp, ← pow_add, ← pow_add]
      congr 1
      omega

/-- A number of the format that is no smaller than the first one with this last
place is a multiple of the last place. -/
theorem ulp_dvd {n m e : ℕ} (hp : 0 < p) (hm : m < 2 ^ p)
    (hle : 2 ^ (p - 1) * ulp p n ≤ m * 2 ^ e) : ulp p n ∣ m * 2 ^ e := by
  refine Dvd.dvd.mul_left ?_ m
  apply Nat.pow_dvd_pow
  by_contra hlt
  have hpow : 2 ^ (e + 1) ≤ ulp p n :=
    Nat.pow_le_pow_right (by decide) (by omega)
  have hbig : 2 ^ p * 2 ^ e ≤ m * 2 ^ e :=
    calc 2 ^ p * 2 ^ e = 2 ^ (p - 1) * 2 ^ (e + 1) := by
          rw [← pow_add, ← pow_add]
          congr 1
          omega
      _ ≤ 2 ^ (p - 1) * ulp p n := Nat.mul_le_mul_left _ hpow
      _ ≤ m * 2 ^ e := hle
  exact absurd (Nat.le_of_mul_le_mul_right hbig (Nat.two_pow_pos e))
    (not_le.mpr hm)

/-- No number of the format is closer. -/
theorem roundNat_closest (hp : 0 < p) (n : ℕ) {y : ℕ} (hy : Exact p y) :
    |(n : ℤ) - roundNat p n| ≤ |(n : ℤ) - y| := by
  obtain ⟨m, e, hm, hvalue⟩ := hy
  rw [Int.natAbs_natCast] at hvalue
  by_cases hdvd : ulp p n ∣ y
  · obtain ⟨k, rfl⟩ := hdvd
    rw [mul_comm]
    exact roundedQuotient_closest (ulp_pos p n) n k
  · -- such a number is below the first one with the last place of `n`
    have hone : ulp p n ≠ 1 := by
      intro hone
      exact hdvd (hone ▸ one_dvd y)
    have hfirst := two_pow_mul_ulp_le hp hone
    have hlt : y < 2 ^ (p - 1) * ulp p n := by
      by_contra hle
      apply hdvd
      rw [hvalue]
      apply ulp_dvd hp hm
      rw [← hvalue]
      exact not_lt.mp hle
    have hclosest := roundedQuotient_closest (ulp_pos p n) n (2 ^ (p - 1))
    refine hclosest.trans (abs_le_abs_of_nonneg ?_ ?_) <;> omega

end

/-! ### Rounding an integer -/

section

variable {p : ℕ}

theorem exact_natAbs_iff {n : ℤ} : Exact p n.natAbs ↔ Exact p n := by
  unfold Exact
  rw [Int.natAbs_natCast]

theorem roundNat_eq_self_iff (hp : 0 < p) (n : ℕ) :
    roundNat p n = n ↔ Exact p n := by
  constructor
  · intro hsame
    have hexact := exact_roundNat hp n
    rwa [hsame] at hexact
  · intro hexact
    have hclosest := roundNat_closest hp n hexact
    rw [sub_self, abs_zero, abs_nonpos_iff] at hclosest
    omega

theorem roundNat_zero (hp : 0 < p) : roundNat p 0 = 0 :=
  (roundNat_eq_self_iff hp 0).mpr ⟨0, 0, Nat.two_pow_pos p, rfl⟩

theorem natAbs_nearest (hp : 0 < p) (n : ℤ) :
    (nearest p n).natAbs = roundNat p n.natAbs := by
  unfold nearest
  rcases lt_trichotomy n 0 with hneg | rfl | hpos
  · rw [Int.sign_eq_neg_one_of_neg hneg]
    simp
  · simp [roundNat_zero hp]
  · rw [Int.sign_eq_one_of_pos hpos]
    simp

theorem exact_nearest (hp : 0 < p) (n : ℤ) : Exact p (nearest p n) := by
  rw [← exact_natAbs_iff, natAbs_nearest hp]
  exact exact_roundNat hp _

theorem nearest_eq_self_iff (hp : 0 < p) (n : ℤ) :
    nearest p n = n ↔ Exact p n := by
  constructor
  · intro hsame
    have hexact := exact_nearest hp n
    rwa [hsame] at hexact
  · intro hexact
    have hround := (roundNat_eq_self_iff hp _).mpr (exact_natAbs_iff.mpr hexact)
    unfold nearest
    rw [hround]
    exact Int.sign_mul_natAbs n

/-- Rounding goes by the magnitude. -/
theorem nearest_sign_mul (hp : 0 < p) {n : ℤ} {k : ℕ}
    (hround : roundNat p k = n.natAbs) : nearest p (n.sign * k) = n := by
  rcases eq_or_ne n 0 with rfl | hn
  · simp [nearest]
  · have hk : k ≠ 0 := by
      rintro rfl
      rw [roundNat_zero hp] at hround
      omega
    have hsign : (n.sign * k).sign = n.sign := by
      rw [Int.sign_mul, Int.sign_sign, Int.sign_natCast_of_ne_zero hk, mul_one]
    have hnatAbs : (n.sign * k).natAbs = k := by
      rw [Int.natAbs_mul, Int.natAbs_sign_of_ne_zero hn, one_mul,
        Int.natAbs_natCast]
    rw [nearest, hsign, hnatAbs, hround]
    exact Int.sign_mul_natAbs n

/-- A bound that the format holds is not passed. -/
theorem roundNat_le (hp : 0 < p) {n y : ℕ} (hy : Exact p y) (hle : n ≤ y) :
    roundNat p n ≤ y := by
  have hclosest := roundNat_closest hp n hy
  rw [abs_of_nonpos (a := (n : ℤ) - y) (by omega), abs_le] at hclosest
  omega

theorem le_roundNat (hp : 0 < p) {n y : ℕ} (hy : Exact p y) (hle : y ≤ n) :
    y ≤ roundNat p n := by
  have hclosest := roundNat_closest hp n hy
  rw [abs_of_nonneg (a := (n : ℤ) - y) (by omega), abs_le] at hclosest
  omega

theorem natAbs_nearest_le (hp : 0 < p) {n y : ℤ} (hy : Exact p y)
    (hle : n.natAbs ≤ y.natAbs) : (nearest p n).natAbs ≤ y.natAbs := by
  rw [natAbs_nearest hp]
  exact roundNat_le hp (exact_natAbs_iff.mpr hy) hle

/-- Below `2 ^ p` only the integer itself becomes it. -/
theorem eq_of_nearest_eq (hp : 0 < p) {n m : ℤ} (hm : m.natAbs < 2 ^ p)
    (hnearest : nearest p n = m) : n = m := by
  have hfirst : Exact p (2 ^ p) := ⟨1, p, Nat.one_lt_two_pow hp.ne', by simp⟩
  have hlt : n.natAbs < 2 ^ p := by
    by_contra hle
    have hge := le_roundNat hp (exact_natAbs_iff.mpr hfirst) (n := n.natAbs)
      (by simpa using hle)
    rw [← natAbs_nearest hp, hnearest, Int.natAbs_pow] at hge
    exact absurd hge (not_le.mpr hm)
  rw [← hnearest]
  exact ((nearest_eq_self_iff hp n).mpr ⟨n.natAbs, 0, hlt, by simp⟩).symm

end

end GoP2P.Binary64
