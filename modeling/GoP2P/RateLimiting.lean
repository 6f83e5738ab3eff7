import Mathlib.Algebra.Order.Round
import Mathlib.Data.Rat.Floor
import GoP2P.Transport

/-!
# The rate limiter over a run

A peer's limiter is asked at a sequence of instants.  A refill credits whole
seconds since the previous one and moves the reference time to the call, so that
less than a second is pending after every call.  This bounds what any window can
admit; it also loses the fraction of a second that each refill did not credit.
-/

namespace GoP2P.Node

open Binary64

namespace PeerRateLimiter

/-! ### One call -/

variable (r : PeerRateLimiter) (seconds : ℤ → ℤ) (now : Time)

/-- The tokens of the seconds since the last refill. -/
def tokensToAdd : ℤ := seconds (now - r.lastRefill) * r.refillRate

theorem refill_cases :
    (r.tokensToAdd seconds now ≤ 0 ∧ r.refill seconds now = r) ∨
    (0 < r.tokensToAdd seconds now ∧ r.refill seconds now =
      { r with
        tokens := min (r.tokens + r.tokensToAdd seconds now) r.maxTokens
        lastRefill := now }) := by
  by_cases hadds : 0 < r.tokensToAdd seconds now
  · exact Or.inr ⟨hadds, if_pos hadds⟩
  · exact Or.inl ⟨not_lt.mp hadds, if_neg hadds⟩

@[simp] theorem refill_maxTokens :
    (r.refill seconds now).maxTokens = r.maxTokens := by
  rcases r.refill_cases seconds now with ⟨-, hrefill⟩ | ⟨-, hrefill⟩ <;>
    rw [hrefill]

@[simp] theorem refill_refillRate :
    (r.refill seconds now).refillRate = r.refillRate := by
  rcases r.refill_cases seconds now with ⟨-, hrefill⟩ | ⟨-, hrefill⟩ <;>
    rw [hrefill]

theorem allow_cases :
    (0 < (r.refill seconds now).tokens ∧ r.allow seconds now =
      (true, { r.refill seconds now with
        tokens := (r.refill seconds now).tokens - 1 })) ∨
    ((r.refill seconds now).tokens ≤ 0 ∧
      r.allow seconds now = (false, r.refill seconds now)) := by
  by_cases htoken : 0 < (r.refill seconds now).tokens
  · exact Or.inl ⟨htoken, if_pos htoken⟩
  · exact Or.inr ⟨not_lt.mp htoken, if_neg htoken⟩

@[simp] theorem allow_maxTokens :
    (r.allow seconds now).2.maxTokens = r.maxTokens := by
  rcases r.allow_cases seconds now with ⟨-, hallow⟩ | ⟨-, hallow⟩ <;>
    exact hallow ▸ r.refill_maxTokens seconds now

@[simp] theorem allow_refillRate :
    (r.allow seconds now).2.refillRate = r.refillRate := by
  rcases r.allow_cases seconds now with ⟨-, hallow⟩ | ⟨-, hallow⟩ <;>
    exact hallow ▸ r.refill_refillRate seconds now

@[simp] theorem allow_lastRefill :
    (r.allow seconds now).2.lastRefill = (r.refill seconds now).lastRefill := by
  rcases r.allow_cases seconds now with ⟨-, hallow⟩ | ⟨-, hallow⟩ <;>
    rw [hallow]

/-- A call takes the token it answers with. -/
theorem allow_tokens :
    (r.allow seconds now).2.tokens + ((r.allow seconds now).1.toNat : ℤ) =
      (r.refill seconds now).tokens := by
  rcases r.allow_cases seconds now with ⟨-, hallow⟩ | ⟨-, hallow⟩
  · rw [hallow]
    exact sub_add_cancel _ 1
  · rw [hallow]
    exact add_zero _

variable {r seconds now}

theorem allow_tokens_nonneg (htokens : 0 ≤ (r.refill seconds now).tokens) :
    0 ≤ (r.allow seconds now).2.tokens := by
  rcases r.allow_cases seconds now with ⟨htoken, hallow⟩ | ⟨-, hallow⟩
  · rw [hallow]
    exact Int.sub_nonneg_of_le htoken
  · rw [hallow]
    exact htokens

/-! ### Sound limiters -/

/-- The token count is within its bounds and the reference time is not after
`now`. -/
structure Sound (r : PeerRateLimiter) (now : Time) : Prop where
  rate_nonneg : 0 ≤ r.refillRate
  tokens_nonneg : 0 ≤ r.tokens
  tokens_le : r.tokens ≤ r.maxTokens
  lastRefill_le : r.lastRefill ≤ now

theorem sound_new {maxTokens refillRate : ℤ} (hmax : 0 ≤ maxTokens)
    (hrate : 0 ≤ refillRate) (now : Time) :
    (newPeerRateLimiter now maxTokens refillRate).Sound now :=
  ⟨hrate, hmax, le_rfl, le_rfl⟩

theorem Sound.later (hsound : r.Sound now) {later : Time}
    (hlater : now ≤ later) : r.Sound later :=
  ⟨hsound.rate_nonneg, hsound.tokens_nonneg, hsound.tokens_le,
    hsound.lastRefill_le.trans hlater⟩

theorem Sound.refill (hsound : r.Sound now) :
    (r.refill seconds now).Sound now := by
  rcases r.refill_cases seconds now with ⟨-, hrefill⟩ | ⟨hadds, hrefill⟩
  · rw [hrefill]
    exact hsound
  · rw [hrefill]
    refine ⟨hsound.rate_nonneg, ?_, min_le_right _ _, le_rfl⟩
    have htokens := hsound.tokens_nonneg
    exact le_min (add_nonneg htokens hadds.le)
      (htokens.trans hsound.tokens_le)

theorem Sound.allow (hsound : r.Sound now) :
    (r.allow seconds now).2.Sound now := by
  have hrefill : (r.refill seconds now).Sound now := hsound.refill
  refine ⟨?_, allow_tokens_nonneg hrefill.tokens_nonneg, ?_, ?_⟩
  · rw [allow_refillRate]
    exact hsound.rate_nonneg
  · have htaken := r.allow_tokens seconds now
    have hbound := hrefill.tokens_le
    rw [refill_maxTokens] at hbound
    rw [allow_maxTokens]
    linarith [Int.natCast_nonneg (r.allow seconds now).1.toNat]
  · rw [allow_lastRefill]
    exact hrefill.lastRefill_le

/-! ### Whole seconds -/

theorem tokensToAdd_eq (hlater : r.lastRefill ≤ now) :
    r.tokensToAdd wholeSeconds now =
      (now - r.lastRefill) / nanosecondsPerSecond * r.refillRate := by
  unfold tokensToAdd wholeSeconds
  rw [Int.tdiv_eq_ediv_of_nonneg (Int.sub_nonneg_of_le hlater)]

/-- A refill credits no more than the whole seconds that it moves the reference
time by. -/
theorem Sound.refill_credit (hsound : r.Sound now) :
    ∃ seconds : ℤ, 0 ≤ seconds ∧
      nanosecondsPerSecond * seconds ≤
        (r.refill wholeSeconds now).lastRefill - r.lastRefill ∧
      (r.refill wholeSeconds now).tokens ≤
        r.tokens + r.refillRate * seconds := by
  have hsecond : 0 < nanosecondsPerSecond := by decide
  have helapsed : 0 ≤ now - r.lastRefill :=
    Int.sub_nonneg_of_le hsound.lastRefill_le
  rcases r.refill_cases wholeSeconds now with ⟨-, hrefill⟩ | ⟨-, hrefill⟩
  · refine ⟨0, le_rfl, ?_, ?_⟩ <;> simp [hrefill]
  · refine ⟨(now - r.lastRefill) / nanosecondsPerSecond,
      Int.ediv_nonneg helapsed hsecond.le, ?_, ?_⟩
    · rw [hrefill]
      exact Int.mul_ediv_self_le hsecond.ne'
    · rw [hrefill, tokensToAdd_eq hsound.lastRefill_le, mul_comm r.refillRate]
      exact min_le_left _ _

/-- After a call less than a second is pending. -/
theorem sub_refill_lastRefill_lt (hlater : r.lastRefill ≤ now)
    (hrate : 0 < r.refillRate) :
    now - (r.refill wholeSeconds now).lastRefill < nanosecondsPerSecond := by
  have hsecond : 0 < nanosecondsPerSecond := by decide
  rcases r.refill_cases wholeSeconds now with ⟨hnone, hrefill⟩ | ⟨-, hrefill⟩
  · rw [tokensToAdd_eq hlater] at hnone
    rw [hrefill]
    by_contra hpending
    have hwhole : 1 ≤ (now - r.lastRefill) / nanosecondsPerSecond := by
      rw [Int.le_ediv_iff_mul_le hsecond, one_mul]
      exact not_lt.mp hpending
    nlinarith
  · rw [hrefill]
    simpa using hsecond

/-! ### Runs -/

/-- The limiter after calls at the given instants. -/
def allowAll (r : PeerRateLimiter) (seconds : ℤ → ℤ) (instants : List Time) :
    PeerRateLimiter :=
  instants.foldl (fun r now => (r.allow seconds now).2) r

/-- The calls with their answers. -/
def answers (r : PeerRateLimiter) (seconds : ℤ → ℤ) :
    List Time → List (Time × Bool)
  | [] => []
  | now :: later =>
      (now, (r.allow seconds now).1) ::
        (r.allow seconds now).2.answers seconds later

/-- The calls from `a` to `b` that were allowed. -/
def admitted (answers : List (Time × Bool)) (a b : Time) : ℕ :=
  answers.countP fun answer =>
    answer.2 && decide (a ≤ answer.1) && decide (answer.1 ≤ b)

theorem admitted_cons_of_mem {a b : Time} (ha : a ≤ now) (hb : now ≤ b)
    (allowed : Bool) (later : List (Time × Bool)) :
    admitted ((now, allowed) :: later) a b =
      allowed.toNat + admitted later a b := by
  unfold admitted
  rw [List.countP_cons]
  cases allowed <;> simp [ha, hb, add_comm]

theorem admitted_cons_of_notMem {a b : Time} (houtside : ¬ (a ≤ now ∧ now ≤ b))
    (allowed : Bool) (later : List (Time × Bool)) :
    admitted ((now, allowed) :: later) a b = admitted later a b := by
  unfold admitted
  rw [List.countP_cons, if_neg, add_zero]
  simp only [Bool.and_eq_true, decide_eq_true_eq]
  rintro ⟨⟨-, ha⟩, hb⟩
  exact houtside ⟨ha, hb⟩

theorem admitted_eq_zero {a b : Time} {instants : List Time}
    (hafter : ∀ instant ∈ instants, b < instant) :
    admitted (r.answers seconds instants) a b = 0 := by
  induction instants generalizing r with
  | nil => rfl
  | cons first later ih =>
      have hfirst : ¬ (a ≤ first ∧ first ≤ b) := fun hwindow =>
        absurd hwindow.2 (not_le.mpr (hafter first List.mem_cons_self))
      rw [answers, admitted_cons_of_notMem hfirst]
      exact ih fun instant hmem => hafter instant (List.mem_cons_of_mem _ hmem)

theorem Sound.allowAll (hsound : r.Sound now) {instants : List Time}
    (htimes : (now :: instants).Pairwise (· ≤ ·)) :
    ∃ last, (r.allowAll seconds instants).Sound last := by
  induction instants generalizing r now with
  | nil => exact ⟨now, hsound⟩
  | cons first later ih =>
      obtain ⟨hfirst, hrest⟩ := List.pairwise_cons.mp htimes
      exact ih (hsound.later (hfirst first List.mem_cons_self)).allow hrest

theorem allowAll_maxTokens (r : PeerRateLimiter) (seconds : ℤ → ℤ)
    (instants : List Time) :
    (r.allowAll seconds instants).maxTokens = r.maxTokens := by
  induction instants generalizing r with
  | nil => rfl
  | cons first later ih => exact (ih _).trans (r.allow_maxTokens seconds first)

/-- From a call on, the calls up to `b` are paid by the tokens there are and by
whole seconds counted from the reference time. -/
theorem Sound.admitted_le (hsound : r.Sound now) {instants : List Time}
    (htimes : (now :: instants).Pairwise (· ≤ ·)) {a b : Time}
    (hopen : ∀ instant ∈ instants, a ≤ instant) (hb : r.lastRefill ≤ b) :
    ∃ seconds : ℤ, 0 ≤ seconds ∧
      nanosecondsPerSecond * seconds ≤ b - r.lastRefill ∧
      (admitted (r.answers wholeSeconds instants) a b : ℤ) ≤
        r.tokens + r.refillRate * seconds := by
  induction instants generalizing r now with
  | nil =>
      refine ⟨0, le_rfl, ?_, ?_⟩
      · simpa using hb
      · simpa [answers, admitted] using hsound.tokens_nonneg
  | cons first later ih =>
      obtain ⟨hfirst, hrest⟩ := List.pairwise_cons.mp htimes
      have hsound' := hsound.later (hfirst first List.mem_cons_self)
      by_cases hbefore : first ≤ b
      · obtain ⟨seconds, hnonneg, hspan, hcredit⟩ := hsound'.refill_credit
        have hnext : (r.allow wholeSeconds first).2.Sound first :=
          hsound'.allow
        obtain ⟨seconds', hnonneg', hspan', hadmitted⟩ := ih hnext hrest
          (fun instant hmem => hopen instant (List.mem_cons_of_mem _ hmem))
          (hnext.lastRefill_le.trans hbefore)
        have htaken := r.allow_tokens wholeSeconds first
        rw [allow_lastRefill] at hspan'
        rw [allow_refillRate] at hadmitted
        refine ⟨seconds + seconds', add_nonneg hnonneg hnonneg', ?_, ?_⟩
        · rw [mul_add]
          linarith
        · rw [answers, admitted_cons_of_mem (hopen first List.mem_cons_self)
            hbefore, Nat.cast_add, mul_add]
          linarith
      · refine ⟨0, le_rfl, ?_, ?_⟩
        · simpa using hb
        · rw [admitted_eq_zero]
          · simpa using hsound.tokens_nonneg
          · intro instant hmem
            rcases List.mem_cons.mp hmem with rfl | hmem
            · exact not_le.mp hbefore
            · exact (not_le.mp hbefore).trans_le
                ((List.pairwise_cons.mp hrest).1 instant hmem)

/-- The seconds of a window, counted up. -/
def secondsUp (a b : Time) : ℤ :=
  ⌈((b - a : ℤ) : ℚ) / nanosecondsPerSecond⌉

theorem secondsUp_nonneg {a b : Time} (hwindow : a ≤ b) :
    0 ≤ secondsUp a b := by
  apply Int.ceil_nonneg
  apply div_nonneg
  · exact_mod_cast Int.sub_nonneg_of_le hwindow
  · norm_num [nanosecondsPerSecond]

theorem le_secondsUp {a b : Time} {seconds : ℤ}
    (hspan : nanosecondsPerSecond * seconds < b - a + nanosecondsPerSecond) :
    seconds ≤ secondsUp a b := by
  have hsecond : (0 : ℚ) < nanosecondsPerSecond := by
    norm_num [nanosecondsPerSecond]
  unfold secondsUp
  rw [Int.le_ceil_iff, lt_div_iff₀ hsecond]
  have hspan' : (seconds - 1) * nanosecondsPerSecond < b - a := by linarith
  exact_mod_cast hspan'

theorem Sound.admitted_window_le (hsound : r.Sound now) {instants : List Time}
    (htimes : (now :: instants).Pairwise (· ≤ ·)) {a b : Time}
    (hwindow : a ≤ b) :
    (admitted (r.answers wholeSeconds instants) a b : ℤ) ≤
      r.maxTokens + r.refillRate * secondsUp a b := by
  have hseconds := secondsUp_nonneg hwindow
  induction instants generalizing r now with
  | nil =>
      have hmax := hsound.tokens_nonneg.trans hsound.tokens_le
      exact add_nonneg hmax (mul_nonneg hsound.rate_nonneg hseconds)
  | cons first later ih =>
      obtain ⟨hfirst, hrest⟩ := List.pairwise_cons.mp htimes
      have hsound' := hsound.later (hfirst first List.mem_cons_self)
      have hnext : (r.allow wholeSeconds first).2.Sound first :=
        hsound'.allow
      by_cases hinside : a ≤ first ∧ first ≤ b
      · -- the first call inside: it leaves less than a second pending
        obtain ⟨seconds, hnonneg, hspan, hadmitted⟩ := hnext.admitted_le hrest
          (fun instant hmem =>
            hinside.1.trans ((List.pairwise_cons.mp hrest).1 instant hmem))
          (hnext.lastRefill_le.trans hinside.2)
        rw [answers, admitted_cons_of_mem hinside.1 hinside.2, Nat.cast_add]
        have htaken := r.allow_tokens wholeSeconds first
        have hbound : (r.refill wholeSeconds first).tokens ≤ _ :=
          hsound'.refill.tokens_le
        rw [refill_maxTokens] at hbound
        rw [allow_refillRate] at hadmitted
        rw [allow_lastRefill] at hspan
        have hcredit : r.refillRate * seconds ≤
            r.refillRate * secondsUp a b := by
          rcases hsound.rate_nonneg.eq_or_lt with hzero | hrate
          · rw [← hzero, zero_mul, zero_mul]
          · apply mul_le_mul_of_nonneg_left _ hrate.le
            apply le_secondsUp
            have hpending :=
              sub_refill_lastRefill_lt hsound'.lastRefill_le hrate
            linarith [hinside.1]
        linarith
      · rw [answers, admitted_cons_of_notMem hinside]
        have hlater := ih hnext hrest
        rw [allow_maxTokens, allow_refillRate] at hlater
        exact hlater

/-! ### Seconds in floating point -/

theorem exact_of_lt {k : ℕ} (hk : k < 2 ^ 53) (e : ℕ) :
    Exact 53 (k * 2 ^ e : ℕ) := ⟨k, e, hk, rfl⟩

/-- Rounding does not lose a whole second. -/
theorem le_secondsNat {k ns : ℕ} (hk : k < 2 ^ 53) (hle : k ≤ ns / 10 ^ 9) :
    k ≤ secondsNat ns := by
  have hwhole : k ≤ roundNat 53 (ns / 10 ^ 9) :=
    le_roundNat (by decide) ⟨k, 0, hk, by simp⟩ hle
  rw [secondsNat, Nat.le_div_iff_mul_le (by decide)]
  apply le_roundNat (by decide) (exact_of_lt hk 128)
  exact (Nat.mul_le_mul_right _ hwhole).trans (Nat.le_add_right _ _)

/-- The rounded fraction of a second stays below `1 - 2 ^ -30`. -/
theorem nearestQuotient_nanoseconds_le {nsec : ℕ} (hnsec : nsec < 10 ^ 9) :
    nearestQuotient 53 127 nsec (10 ^ 9) ≤ (2 ^ 53 - 9007199) * 2 ^ 75 := by
  have hquotient : nsec * 2 ^ 127 / 10 ^ 9 < (2 ^ 53 - 9007199) * 2 ^ 74 := by
    rw [Nat.div_lt_iff_lt_mul (by norm_num)]
    calc nsec * 2 ^ 127 ≤ (10 ^ 9 - 1) * 2 ^ 127 :=
          Nat.mul_le_mul_right _ (Nat.le_pred_of_lt hnsec)
      _ < (2 ^ 53 - 9007199) * 2 ^ 74 * 10 ^ 9 := by norm_num
  unfold nearestQuotient
  generalize nsec * 2 ^ 127 / 10 ^ 9 = quotient at *
  apply roundNat_le (by norm_num)
    (exact_of_lt (k := 2 ^ 53 - 9007199) (by norm_num) 75)
  split_ifs <;> omega

/-- Below `2 ^ 24` seconds no elapsed time is rounded up to the next second. -/
theorem secondsNat_eq {ns : ℕ} (hshort : ns / 10 ^ 9 < 2 ^ 24) :
    secondsNat ns = ns / 10 ^ 9 := by
  have hfraction := nearestQuotient_nanoseconds_le
    (Nat.mod_lt ns (by decide : 0 < 10 ^ 9))
  have hwhole : roundNat 53 (ns / 10 ^ 9) = ns / 10 ^ 9 :=
    (roundNat_eq_self_iff (by decide) _).mpr
      ⟨ns / 10 ^ 9, 0, by omega, by rw [pow_zero, mul_one]; rfl⟩
  apply le_antisymm _ (le_secondsNat (by omega) le_rfl)
  rw [secondsNat, hwhole, ← Nat.lt_succ_iff, Nat.div_lt_iff_lt_mul (by decide)]
  generalize ns / 10 ^ 9 = sec at *
  generalize nearestQuotient 53 127 (ns % 10 ^ 9) (10 ^ 9) = fraction at *
  -- the last number of the format before the next second is closer
  have hclosest := roundNat_closest (p := 53) (by decide)
    (sec * 2 ^ 128 + fraction)
    (exact_of_lt (k := (sec + 1) * 2 ^ 29 - 1) (by omega) 99)
  by_contra hnext
  rw [abs_of_nonpos (by omega)] at hclosest
  rcases abs_cases ((sec * 2 ^ 128 + fraction : ℕ) -
    (((sec + 1) * 2 ^ 29 - 1) * 2 ^ 99 : ℕ) : ℤ) with habs | habs <;> omega

theorem intSeconds_of_nonneg {elapsed : ℤ} (hnonneg : 0 ≤ elapsed) :
    intSeconds elapsed = secondsNat elapsed.natAbs := by
  rcases hnonneg.eq_or_lt with rfl | hpos
  · decide +kernel
  · rw [intSeconds, Int.sign_eq_one_of_pos hpos, one_mul]

theorem intSeconds_eq {elapsed : ℤ} (hnonneg : 0 ≤ elapsed)
    (hshort : elapsed < 2 ^ 24 * nanosecondsPerSecond) :
    intSeconds elapsed = elapsed / nanosecondsPerSecond := by
  unfold nanosecondsPerSecond at *
  rw [intSeconds_of_nonneg hnonneg, secondsNat_eq (by omega)]
  omega

/-- The first elapsed time that is rounded up. -/
example : intSeconds (2 ^ 24 * 10 ^ 9 + 999999999) = 2 ^ 24 + 1 := by
  decide +kernel

theorem le_intSeconds {elapsed : ℤ} {k : ℕ} (hk : k < 2 ^ 53)
    (hle : k * nanosecondsPerSecond ≤ elapsed) : k ≤ intSeconds elapsed := by
  unfold nanosecondsPerSecond at hle
  rw [intSeconds_of_nonneg (by omega)]
  exact_mod_cast le_secondsNat hk (by omega)

/-- After so many seconds the limiter is full, however they are counted. -/
theorem Sound.refill_full (hsound : r.Sound now) (hmax : r.maxTokens ≤ 2 ^ 24)
    (hrate : 0 < r.refillRate) (hlong : 2 ^ 24 ≤ seconds (now - r.lastRefill)) :
    r.refill seconds now =
      { r with tokens := r.maxTokens, lastRefill := now } := by
  have hadds : 2 ^ 24 ≤ r.tokensToAdd seconds now :=
    hlong.trans (le_mul_of_one_le_right (by omega) hrate)
  have htokens := hsound.tokens_nonneg
  rcases r.refill_cases seconds now with ⟨hnone, -⟩ | ⟨-, hrefill⟩
  · omega
  · rw [hrefill, min_eq_right (by omega)]

theorem Sound.refill_intSeconds (hsound : r.Sound now)
    (hmax : r.maxTokens ≤ 2 ^ 24) :
    r.refill intSeconds now = r.refill wholeSeconds now := by
  have hnonneg := Int.sub_nonneg_of_le hsound.lastRefill_le
  have hwhole : wholeSeconds (now - r.lastRefill) =
      (now - r.lastRefill) / nanosecondsPerSecond :=
    Int.tdiv_eq_ediv_of_nonneg hnonneg
  rcases hsound.rate_nonneg.eq_or_lt with hzero | hrate
  · simp [PeerRateLimiter.refill, ← hzero]
  · rcases lt_or_ge (now - r.lastRefill) (2 ^ 24 * nanosecondsPerSecond) with
      hshort | hlong
    · simp only [PeerRateLimiter.refill, intSeconds_eq hnonneg hshort, hwhole]
    · rw [hsound.refill_full hmax hrate (le_intSeconds (by decide) hlong),
        hsound.refill_full hmax hrate]
      rw [hwhole, Int.le_ediv_iff_mul_le (by decide)]
      exact hlong

/-- Up to `2 ^ 24` tokens the rounding of the seconds changes no answer. -/
theorem Sound.answers_intSeconds (hsound : r.Sound now)
    (hmax : r.maxTokens ≤ 2 ^ 24) {instants : List Time}
    (htimes : (now :: instants).Pairwise (· ≤ ·)) :
    r.answers intSeconds instants = r.answers wholeSeconds instants := by
  induction instants generalizing r now with
  | nil => simp only [answers]
  | cons first later ih =>
      obtain ⟨hfirst, hrest⟩ := List.pairwise_cons.mp htimes
      have hsound' := hsound.later (hfirst first List.mem_cons_self)
      have hallow : r.allow intSeconds first = r.allow wholeSeconds first := by
        unfold PeerRateLimiter.allow
        rw [hsound'.refill_intSeconds hmax]
      have hmax' := (r.allow_maxTokens wholeSeconds first).le.trans hmax
      rw [answers, answers, hallow, ih hsound'.allow hmax' hrest]

/-- At any instants, the tokens stay within their bounds and no window admits
more than the burst and the refill of its seconds.  Up to `2 ^ 24` tokens the
calls are answered alike when the seconds are rounded. -/
theorem allow_never_over_admits {maxTokens refillRate : ℤ}
    (hmax : 0 ≤ maxTokens) (hrate : 0 ≤ refillRate) {created : Time}
    {instants : List Time}
    (htimes : (created :: instants).Pairwise (· ≤ ·)) :
    (∀ seconds,
      0 ≤ ((newPeerRateLimiter created maxTokens refillRate).allowAll seconds
        instants).tokens ∧
      ((newPeerRateLimiter created maxTokens refillRate).allowAll seconds
        instants).tokens ≤ maxTokens) ∧
    (∀ a b, a ≤ b →
      (admitted ((newPeerRateLimiter created maxTokens refillRate).answers
          wholeSeconds instants) a b : ℤ) ≤
        maxTokens + refillRate * secondsUp a b) ∧
    (maxTokens ≤ 2 ^ 24 →
      (newPeerRateLimiter created maxTokens refillRate).answers intSeconds
          instants =
        (newPeerRateLimiter created maxTokens refillRate).answers wholeSeconds
          instants) := by
  have hsound := sound_new hmax hrate created
  refine ⟨?_, ?_, ?_⟩
  · intro seconds
    obtain ⟨last, hlast⟩ : ∃ last, PeerRateLimiter.Sound _ last :=
      hsound.allowAll htimes
    have hbound := hlast.tokens_le
    rw [allowAll_maxTokens] at hbound
    exact ⟨hlast.tokens_nonneg, hbound⟩
  · intro a b hwindow
    exact hsound.admitted_window_le htimes hwindow
  · intro hfew
    exact hsound.answers_intSeconds hfew htimes

/-- Three calls at once against a burst of two, and one a second later. -/
theorem allow_never_over_admits_burst :
    admitted ((newPeerRateLimiter 0 2 1).answers wholeSeconds
        [0, 0, 0, 10 ^ 9]) 0 (10 ^ 9) = 3 ∧
    ((admitted ((newPeerRateLimiter 0 2 1).answers wholeSeconds
        [0, 0, 0, 10 ^ 9]) 0 (10 ^ 9) : ℕ) : ℤ) ≤
      2 + 1 * secondsUp 0 (10 ^ 9) := by
  refine ⟨by decide, ?_⟩
  exact (allow_never_over_admits (by decide) (by decide) (by decide)).2.1 0
    (10 ^ 9) (by decide)

/-! ### The time that refills lose -/

end PeerRateLimiter

end GoP2P.Node
