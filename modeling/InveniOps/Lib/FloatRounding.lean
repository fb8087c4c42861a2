import Mathlib.Algebra.Order.Floor.Ring
import Mathlib.Data.Int.Log
import Mathlib.Data.Rat.Floor
import Mathlib.Tactic.Linarith
import Mathlib.Tactic.Positivity
import Mathlib.Tactic.Ring

/-!
# Rounding to floating-point numbers

A number is rounded to the nearest one with as many digits as a format has, a tie to the
even digit.  Exponents have no bounds.  Rounding is monotone, keeps small integers and
errs by half a unit of the last digit.  The last section has what the formats with an even
base say about a difference, a sum and a quotient that are rounded in turn.
-/

namespace InveniOps.Lib

/-! ### The nearest integer -/

/-- The nearest integer, and the even one of two. -/
def roundEven (q : ℚ) : ℤ :=
  if q - ⌊q⌋ < 1 / 2 ∨ q - ⌊q⌋ = 1 / 2 ∧ Even ⌊q⌋ then ⌊q⌋ else ⌊q⌋ + 1

section

variable {p q : ℚ} {n : ℤ}

lemma floor_le_roundEven (q : ℚ) : ⌊q⌋ ≤ roundEven q := by
  unfold roundEven
  split_ifs <;> omega

lemma roundEven_le_floor_add_one (q : ℚ) : roundEven q ≤ ⌊q⌋ + 1 := by
  unfold roundEven
  split_ifs <;> omega

lemma roundEven_mono (h : p ≤ q) : roundEven p ≤ roundEven q := by
  rcases (Int.floor_mono h).lt_or_eq with hlt | heq
  · calc roundEven p ≤ ⌊p⌋ + 1 := roundEven_le_floor_add_one p
      _ ≤ ⌊q⌋ := hlt
      _ ≤ roundEven q := floor_le_roundEven q
  · unfold roundEven
    rw [heq]
    split_ifs with hp hq hq
    · exact le_rfl
    · omega
    · -- a fraction of `p` that is rounded up is not above that of `q`
      refine absurd ?_ hp
      rcases hq with hq | ⟨hq, heven⟩
      · exact .inl (by linarith)
      · rcases (show p - ⌊q⌋ ≤ 1 / 2 by linarith).lt_or_eq with hlt | heq'
        · exact .inl hlt
        · exact .inr ⟨heq', heven⟩
    · exact le_rfl

@[simp] lemma roundEven_intCast (n : ℤ) : roundEven n = n := by
  simp [roundEven]

lemma abs_roundEven_sub_le (q : ℚ) : |roundEven q - q| ≤ 1 / 2 := by
  have hfloor := Int.floor_le q
  have hlt := Int.lt_floor_add_one q
  unfold roundEven
  split_ifs with h
  · have hhalf : q - ⌊q⌋ ≤ 1 / 2 := h.elim le_of_lt fun h => h.1.le
    rw [abs_le]
    constructor <;> linarith
  · have hhalf : 1 / 2 ≤ q - ⌊q⌋ := not_lt.1 fun hlt => h (.inl hlt)
    push_cast
    rw [abs_le]
    constructor <;> linarith

/-- An even integer attracts both of its ties. -/
lemma roundEven_of_even (heven : Even n) (h : |n - q| ≤ 1 / 2) : roundEven q = n := by
  obtain ⟨hlo, hhi⟩ := abs_le.1 h
  rcases le_or_gt (n : ℚ) q with hle | hlt
  · have hfloor : ⌊q⌋ = n := Int.floor_eq_iff.2 ⟨hle, by linarith⟩
    unfold roundEven
    rw [hfloor]
    refine if_pos ?_
    rcases (show q - n ≤ 1 / 2 by linarith).lt_or_eq with hlt | heq
    · exact .inl hlt
    · exact .inr ⟨heq, heven⟩
  · have hfloor : ⌊q⌋ = n - 1 := by
      refine Int.floor_eq_iff.2 ⟨?_, ?_⟩
      all_goals push_cast; linarith
    have hodd : ¬ Even (n - 1) := by
      rw [Int.even_sub]
      simp [heven]
    unfold roundEven
    rw [hfloor, if_neg, sub_add_cancel]
    rintro (hlt' | ⟨-, heven'⟩)
    · push_cast at hlt'
      linarith
    · exact hodd heven'

lemma le_roundEven (h : (n : ℚ) ≤ q) : n ≤ roundEven q := by
  have hmono := roundEven_mono h
  rwa [roundEven_intCast] at hmono

lemma roundEven_le (h : q ≤ n) : roundEven q ≤ n := by
  have hmono := roundEven_mono h
  rwa [roundEven_intCast] at hmono

lemma lt_roundEven (h : n + 1 / 2 < q) : n < roundEven q := by
  have herror := (abs_le.1 (abs_roundEven_sub_le q)).1
  have hlt : (n : ℚ) < roundEven q := by linarith
  exact_mod_cast hlt

end

/-! ### Formats -/

/-- How many digits a number has in which base; its exponent is any integer. -/
structure FloatFormat where
  base : ℕ
  digits : ℕ
  one_lt_base : 1 < base
  digits_pos : 0 < digits

namespace FloatFormat

/-- The significands of IEEE doubles. -/
def binary64 : FloatFormat := ⟨2, 53, by decide, by decide⟩

/-- The decimals that `%.14g` prints. -/
def decimal14 : FloatFormat := ⟨10, 14, by decide, by decide⟩

variable (F : FloatFormat)

/-- The unit in the last digit of a positive number. -/
def unit (q : ℚ) : ℚ := (F.base : ℚ) ^ (Int.log F.base q - (F.digits - 1))

/-- The nearest number of the format to one that is not negative. -/
def roundAbs (q : ℚ) : ℚ := roundEven (q / F.unit q) * F.unit q

/-- The nearest number of the format. -/
def round (q : ℚ) : ℚ := if q < 0 then -F.roundAbs (-q) else F.roundAbs q

variable {F} {p q : ℚ} {n : ℕ}

lemma base_pos : (0 : ℚ) < F.base := by exact_mod_cast zero_lt_one.trans F.one_lt_base

lemma base_ne_zero : (F.base : ℚ) ≠ 0 := base_pos.ne'

lemma unit_pos : 0 < F.unit q := zpow_pos base_pos _

lemma roundAbs_zero : F.roundAbs 0 = 0 := by
  have hzero : roundEven 0 = 0 := by simpa using roundEven_intCast 0
  rw [roundAbs, zero_div, hzero, Int.cast_zero, zero_mul]

lemma round_of_nonneg (h : 0 ≤ q) : F.round q = F.roundAbs q := if_neg (not_lt.2 h)

lemma round_of_neg (h : q < 0) : F.round q = -F.roundAbs (-q) := if_pos h

@[simp] lemma round_zero : F.round 0 = 0 := by
  rw [round_of_nonneg le_rfl, roundAbs_zero]

lemma unit_eq (q : ℚ) :
    F.unit q = (F.base : ℚ) ^ Int.log F.base q * (F.base : ℚ) ^ (1 - F.digits : ℤ) := by
  rw [← zpow_add₀ base_ne_zero, unit]
  congr 1
  omega

/-- A power of the base in units of a number. -/
lemma zpow_eq_mul_unit (n : ℕ) :
    (F.base : ℚ) ^ (Int.log F.base q - (F.digits - 1) + n) = (F.base ^ n : ℕ) * F.unit q := by
  rw [zpow_add₀ base_ne_zero, zpow_natCast, unit, Nat.cast_pow, mul_comm]

lemma unit_le_of_le (hp : 0 < p) (h : p ≤ q) : F.unit p ≤ F.unit q := by
  have hlog := Int.log_mono_right (b := F.base) hp h
  have hbase : (1 : ℚ) ≤ F.base := by exact_mod_cast F.one_lt_base.le
  exact zpow_le_zpow_right₀ hbase (by omega)

/-- A positive number lies between the powers of its magnitude, also when it is rounded. -/
lemma le_roundAbs (hq : 0 < q) : (F.base : ℚ) ^ Int.log F.base q ≤ F.roundAbs q := by
  have hpow : (F.base : ℚ) ^ Int.log F.base q = (F.base ^ (F.digits - 1) : ℕ) * F.unit q := by
    rw [← zpow_eq_mul_unit]
    congr 1
    have := F.digits_pos
    omega
  have hle := Int.zpow_log_le_self F.one_lt_base hq
  rw [hpow] at hle ⊢
  have hdiv := (le_div_iff₀ unit_pos).2 hle
  have hround : ((F.base ^ (F.digits - 1) : ℕ) : ℤ) ≤ roundEven (q / F.unit q) :=
    le_roundEven (by exact_mod_cast hdiv)
  have hround' : ((F.base ^ (F.digits - 1) : ℕ) : ℚ) ≤ roundEven (q / F.unit q) := by
    exact_mod_cast hround
  exact mul_le_mul_of_nonneg_right hround' unit_pos.le

lemma roundAbs_le : F.roundAbs q ≤ (F.base : ℚ) ^ (Int.log F.base q + 1) := by
  have hpow : (F.base : ℚ) ^ (Int.log F.base q + 1) = (F.base ^ F.digits : ℕ) * F.unit q := by
    rw [← zpow_eq_mul_unit]
    congr 1
    omega
  have hle := (Int.lt_zpow_succ_log_self F.one_lt_base q).le
  rw [hpow] at hle ⊢
  have hdiv := (div_le_iff₀ unit_pos).2 hle
  have hround : roundEven (q / F.unit q) ≤ ((F.base ^ F.digits : ℕ) : ℤ) :=
    roundEven_le (by exact_mod_cast hdiv)
  have hround' : (roundEven (q / F.unit q) : ℚ) ≤ (F.base ^ F.digits : ℕ) := by
    exact_mod_cast hround
  exact mul_le_mul_of_nonneg_right hround' unit_pos.le

lemma roundAbs_pos (hq : 0 < q) : 0 < F.roundAbs q :=
  (zpow_pos base_pos _).trans_le (le_roundAbs hq)

lemma roundAbs_mono (hp : 0 ≤ p) (h : p ≤ q) : F.roundAbs p ≤ F.roundAbs q := by
  rcases hp.eq_or_lt with rfl | hp
  · rw [roundAbs_zero]
    rcases h.eq_or_lt with rfl | hq
    · rw [roundAbs_zero]
    · exact (roundAbs_pos hq).le
  · rcases (Int.log_mono_right (b := F.base) hp h).lt_or_eq with hlt | heq
    · -- a power of the base lies between them
      have hbase : (1 : ℚ) ≤ F.base := by exact_mod_cast F.one_lt_base.le
      calc F.roundAbs p ≤ (F.base : ℚ) ^ (Int.log F.base p + 1) := roundAbs_le
        _ ≤ (F.base : ℚ) ^ Int.log F.base q := zpow_le_zpow_right₀ hbase hlt
        _ ≤ F.roundAbs q := le_roundAbs (hp.trans_le h)
    · have hunit : F.unit p = F.unit q := by rw [unit, unit, heq]
      have hround := roundEven_mono (div_le_div_of_nonneg_right h (unit_pos (F := F) (q := q)).le)
      rw [roundAbs, roundAbs, hunit]
      exact mul_le_mul_of_nonneg_right (by exact_mod_cast hround) unit_pos.le

lemma roundAbs_nonneg (hq : 0 ≤ q) : 0 ≤ F.roundAbs q := by
  rw [← roundAbs_zero (F := F)]
  exact roundAbs_mono le_rfl hq

/-- **Rounding is monotone.** -/
theorem round_mono (h : p ≤ q) : F.round p ≤ F.round q := by
  rcases lt_or_ge p 0 with hp | hp
  · rw [round_of_neg hp]
    rcases lt_or_ge q 0 with hq | hq
    · rw [round_of_neg hq]
      exact neg_le_neg (roundAbs_mono (by linarith) (by linarith))
    · have hp' : 0 ≤ F.roundAbs (-p) := roundAbs_nonneg (by linarith)
      rw [round_of_nonneg hq]
      linarith [roundAbs_nonneg (F := F) hq]
  · rw [round_of_nonneg hp, round_of_nonneg (hp.trans h)]
    exact roundAbs_mono hp h

lemma round_nonneg (h : 0 ≤ q) : 0 ≤ F.round q := by
  rw [round_of_nonneg h]
  exact roundAbs_nonneg h

lemma round_pos (h : 0 < q) : 0 < F.round q := by
  rw [round_of_nonneg h.le]
  exact roundAbs_pos h

/-- Whole units are numbers of the format. -/
lemma roundAbs_of_eq_mul {m : ℤ} (h : q = m * F.unit q) : F.roundAbs q = q := by
  have hdiv : q / F.unit q = m := (div_eq_iff unit_pos.ne').2 h
  rw [roundAbs, hdiv, roundEven_intCast, ← h]

/-- A number with enough digits before its point is in units of a smaller one. -/
lemma natCast_eq_mul_unit {k : ℕ} (hk : Int.log F.base q + k = F.digits - 1) :
    (n : ℚ) = ((n * F.base ^ k : ℕ) : ℤ) * F.unit q := by
  have hunit : (F.base : ℚ) ^ (0 : ℤ) = (F.base ^ k : ℕ) * F.unit q := by
    rw [← zpow_eq_mul_unit]
    congr 1
    omega
  rw [zpow_zero] at hunit
  push_cast at hunit ⊢
  rw [mul_assoc, ← hunit, mul_one]

lemma log_natCast_lt (hn : n ≠ 0) {k : ℕ} (h : n < F.base ^ k) : Int.log F.base (n : ℚ) < k := by
  rw [Int.log_natCast]
  exact_mod_cast Nat.log_lt_of_lt_pow hn h

/-- Small natural numbers are numbers of the format. -/
lemma round_natCast (h : n < F.base ^ F.digits) : F.round n = n := by
  rw [round_of_nonneg n.cast_nonneg]
  rcases eq_or_ne n 0 with rfl | hn
  · rw [Nat.cast_zero, roundAbs_zero]
  · have hlog := log_natCast_lt hn h
    have hnonneg : 0 ≤ Int.log F.base (n : ℚ) := by
      rw [Int.log_natCast]
      exact Int.natCast_nonneg _
    obtain ⟨k, hk⟩ := Int.eq_ofNat_of_zero_le
      (show 0 ≤ (F.digits - 1 : ℤ) - Int.log F.base (n : ℚ) by omega)
    exact roundAbs_of_eq_mul (natCast_eq_mul_unit (k := k) (by omega))

lemma natCast_le_round (h : n < F.base ^ F.digits) (hq : n ≤ q) : (n : ℚ) ≤ F.round q := by
  rw [← round_natCast (F := F) h]
  exact round_mono hq

lemma round_le_natCast (h : n < F.base ^ F.digits) (hq : q ≤ n) : F.round q ≤ n := by
  rw [← round_natCast (F := F) h]
  exact round_mono hq

/-- The error of rounding, in parts of the number. -/
def precision (F : FloatFormat) : ℚ := (F.base : ℚ) ^ (1 - F.digits : ℤ) / 2

lemma precision_nonneg : 0 ≤ F.precision := (div_pos (zpow_pos base_pos _) two_pos).le

lemma abs_roundAbs_sub_le (hq : 0 ≤ q) : |F.roundAbs q - q| ≤ F.precision * q := by
  rcases hq.eq_or_lt with rfl | hq
  · rw [roundAbs_zero, sub_zero, abs_zero, mul_zero]
  · have hunit := unit_pos (F := F) (q := q)
    have herror : F.roundAbs q - q = (roundEven (q / F.unit q) - q / F.unit q) * F.unit q := by
      rw [sub_mul, div_mul_cancel₀ _ hunit.ne', roundAbs]
    have hle := Int.zpow_log_le_self F.one_lt_base hq
    calc |F.roundAbs q - q| = |roundEven (q / F.unit q) - q / F.unit q| * F.unit q := by
          rw [herror, abs_mul, abs_of_pos hunit]
      _ ≤ 1 / 2 * F.unit q := mul_le_mul_of_nonneg_right (abs_roundEven_sub_le _) hunit.le
      _ = F.precision * (F.base : ℚ) ^ Int.log F.base q := by
          rw [unit_eq, precision]
          ring
      _ ≤ F.precision * q := mul_le_mul_of_nonneg_left hle precision_nonneg

/-- **The error of rounding.** -/
theorem abs_round_sub_le (hq : 0 ≤ q) : |F.round q - q| ≤ F.precision * q := by
  rw [round_of_nonneg hq]
  exact abs_roundAbs_sub_le hq

/-- Rounding adds its error to an error that is there. -/
lemma abs_round_sub_le_of_near {x y error : ℚ} (hx : 0 ≤ x) (herror : error ≤ 1)
    (h : |y - x| ≤ error * x) :
    |F.round y - x| ≤ (error + F.precision * (1 + error)) * x := by
  obtain ⟨hlo, hhi⟩ := abs_le.1 h
  have herror_x : error * x ≤ x := mul_le_of_le_one_left hx herror
  have hy : 0 ≤ y := by linarith
  calc |F.round y - x| = |(F.round y - y) + (y - x)| := by rw [sub_add_sub_cancel]
    _ ≤ |F.round y - y| + |y - x| := abs_add_le _ _
    _ ≤ F.precision * y + error * x := add_le_add (abs_round_sub_le hy) h
    _ ≤ F.precision * (x + error * x) + error * x := by
      have := mul_le_mul_of_nonneg_left (show y ≤ x + error * x by linarith)
        (precision_nonneg (F := F))
      linarith
    _ = (error + F.precision * (1 + error)) * x := by ring

lemma round_max_zero (q : ℚ) : max 0 (F.round q) = F.round (max 0 q) := by
  rcases le_total 0 q with h | h
  · rw [max_eq_right h, max_eq_right (round_nonneg h)]
  · have hle := round_mono (F := F) h
    rw [round_zero] at hle
    rw [max_eq_left h, max_eq_left hle, round_zero]

/-! ### Differences, sums and quotients -/

/-- What lacks at most `m` of an integer as its difference is rounded reaches it with `m` as
the sum is rounded, if the base is even. -/
theorem natCast_le_round_add (heven : Even F.base) {m : ℕ} (hn : n < F.base ^ (F.digits - 1))
    (hq : 0 ≤ q) (h : F.round (n - q) ≤ m) : (n : ℚ) ≤ F.round (q + m) := by
  have hpow : F.base ^ (F.digits - 1) ≤ F.base ^ F.digits :=
    Nat.pow_le_pow_right (by have := F.one_lt_base; omega) (Nat.sub_le _ _)
  by_contra hnot
  have hlt : q + m < n := by
    by_contra hle
    exact hnot (natCast_le_round (hn.trans_le hpow) (not_lt.1 hle))
  have hmn : m < n := by exact_mod_cast (le_add_of_nonneg_left hq).trans_lt hlt
  have hx : (0 : ℚ) < n - q := by linarith [(m.cast_nonneg : (0 : ℚ) ≤ m)]
  -- the difference is rounded down to `m`, so that it exceeds `m` by at most half a unit
  have hdown : F.roundAbs (n - q) = m := by
    rw [← round_of_nonneg hx.le]
    exact le_antisymm h (natCast_le_round ((hmn.trans hn).trans_le hpow) (by linarith))
  have hgap : n - q - m ≤ F.unit (n - q) / 2 := by
    have herror := (abs_le.1 (abs_roundEven_sub_le ((n - q) / F.unit (n - q)))).1
    have hunit := unit_pos (F := F) (q := n - q)
    have hmul := mul_le_mul_of_nonneg_right herror hunit.le
    rw [sub_mul, div_mul_cancel₀ _ hunit.ne', ← roundAbs, hdown] at hmul
    linarith
  have hlog : ∀ y : ℚ, 0 < y → y ≤ n → Int.log F.base y < (F.digits - 1 : ℕ) := fun y hy hle =>
    (Int.log_mono_right hy hle).trans_lt (log_natCast_lt (by omega) hn)
  have hunit_le : F.unit (n - q) ≤ 1 := by
    have hbase : (1 : ℚ) ≤ F.base := by exact_mod_cast F.one_lt_base.le
    have := hlog (n - q) hx (by linarith)
    have := F.digits_pos
    exact zpow_le_one_of_nonpos₀ hbase (by omega)
  -- the sum is not in smaller units, so that the integer attracts it
  have hy : n - q ≤ q + m := by
    have hone : (m : ℚ) + 1 ≤ n := by exact_mod_cast hmn
    linarith
  have hunit := unit_le_of_le (F := F) hx hy
  have hlog' := hlog (q + m) (hx.trans_le hy) hlt.le
  obtain ⟨k, hk⟩ := Int.eq_ofNat_of_zero_le
    (show 0 ≤ (F.digits - 1 - 1 : ℤ) - Int.log F.base (q + m) by
      have := F.digits_pos
      omega)
  have heq := natCast_eq_mul_unit (F := F) (q := q + m) (n := n) (k := k + 1) (by omega)
  have hpos := unit_pos (F := F) (q := q + m)
  have hround : roundEven ((q + m) / F.unit (q + m)) = ((n * F.base ^ (k + 1) : ℕ) : ℤ) := by
    refine roundEven_of_even ?_ ?_
    · exact_mod_cast (heven.pow_of_ne_zero k.succ_ne_zero).mul_left n
    · have hdiv : (((n * F.base ^ (k + 1) : ℕ) : ℤ) : ℚ) - (q + m) / F.unit (q + m)
          = (n - (q + m)) / F.unit (q + m) := by
        rw [sub_div]
        congr 1
        exact (eq_div_iff hpos.ne').2 heq.symm
      rw [hdiv, abs_of_nonneg (div_nonneg (by linarith) hpos.le), div_le_iff₀ hpos]
      linarith
  refine hnot (le_of_eq ?_)
  rw [round_of_nonneg (hx.le.trans hy), roundAbs, hround, ← heq]

/-- What exceeds an integer when it is rounded exceeds it by a unit. -/
lemma natCast_add_unit_le_round (hq : 0 < q) (hlog : Int.log F.base q < F.digits)
    (h : n < F.round q) : n + F.unit q ≤ F.round q := by
  obtain ⟨k, hk⟩ := Int.eq_ofNat_of_zero_le
    (show 0 ≤ (F.digits - 1 : ℤ) - Int.log F.base q by omega)
  have heq := natCast_eq_mul_unit (F := F) (q := q) (n := n) (k := k) (by omega)
  rw [round_of_nonneg hq.le, roundAbs] at h ⊢
  rw [heq] at h ⊢
  have hlt := lt_of_mul_lt_mul_right h (unit_pos (F := F) (q := q)).le
  have hle : ((n * F.base ^ k : ℕ) : ℤ) + 1 ≤ roundEven (q / F.unit q) := by exact_mod_cast hlt
  have hle' : (((n * F.base ^ k : ℕ) : ℤ) : ℚ) + 1 ≤ roundEven (q / F.unit q) := by
    exact_mod_cast hle
  linarith [mul_le_mul_of_nonneg_right hle' (unit_pos (F := F) (q := q)).le]

/-- What exceeds an integer by more than half a unit exceeds it when it is rounded. -/
lemma natCast_lt_round (hq : 0 < q) (hlog : Int.log F.base q < F.digits)
    (h : n + F.unit q / 2 < q) : n < F.round q := by
  obtain ⟨k, hk⟩ := Int.eq_ofNat_of_zero_le
    (show 0 ≤ (F.digits - 1 : ℤ) - Int.log F.base q by omega)
  have heq := natCast_eq_mul_unit (F := F) (q := q) (n := n) (k := k) (by omega)
  have hunit := unit_pos (F := F) (q := q)
  have hlt : ((n * F.base ^ k : ℕ) : ℤ) < roundEven (q / F.unit q) := by
    refine lt_roundEven ((lt_div_iff₀ hunit).2 ?_)
    rw [add_mul, ← heq]
    linarith
  rw [round_of_nonneg hq.le, roundAbs, heq]
  exact mul_lt_mul_of_pos_right (by exact_mod_cast hlt) hunit

/-- A quotient that lies between two integers has a unit that, multiplied by the divisor, is
less than two units of the dividend. -/
lemma unit_div_mul_lt (hbase : F.base = 2) {k r : ℕ} (hk : 0 < k) (hr : 0 < r) (hq : 0 < q)
    (h : (k * r : ℕ) < F.round q) (hlt : F.round q / r < ((k + 1 : ℕ) : ℚ)) :
    F.unit (F.round q / r) * r < 2 * F.unit q := by
  have hr' : (0 : ℚ) < r := by exact_mod_cast hr
  have hky : (k : ℚ) < F.round q / r := by
    rw [Nat.cast_mul] at h
    exact (lt_div_iff₀ hr').2 h
  have hy : 0 < F.round q / r := k.cast_nonneg.trans_lt hky
  obtain ⟨l, hl⟩ := Int.eq_ofNat_of_zero_le (show 0 ≤ Int.log F.base (F.round q / r) by
    refine (Int.zpow_le_iff_le_log F.one_lt_base hy).1 ?_
    rw [zpow_zero]
    exact (show (1 : ℚ) ≤ k by exact_mod_cast hk).trans hky.le)
  have hlow : 2 ^ l ≤ k := by
    have hlow := (Int.zpow_log_le_self F.one_lt_base hy).trans_lt hlt
    rw [hl, hbase] at hlow
    exact Nat.lt_succ_iff.1 (by exact_mod_cast hlow)
  have hhigh : F.round q ≤ 2 * (F.base : ℚ) ^ Int.log F.base q := by
    have htwo : (F.base : ℚ) = 2 := by rw [hbase, Nat.cast_ofNat]
    calc F.round q = F.roundAbs q := round_of_nonneg hq.le
      _ ≤ (F.base : ℚ) ^ (Int.log F.base q + 1) := roundAbs_le
      _ = 2 * (F.base : ℚ) ^ Int.log F.base q := by
        rw [zpow_add_one₀ base_ne_zero, mul_comm]
        exact congrArg (· * _) htwo
  have hscaled : (F.base : ℚ) ^ Int.log F.base (F.round q / r) * r
      < 2 * (F.base : ℚ) ^ Int.log F.base q := by
    refine lt_of_le_of_lt ?_ (h.trans_le hhigh)
    rw [hl, hbase, zpow_natCast]
    exact_mod_cast Nat.mul_le_mul_right r hlow
  have hscale : (0 : ℚ) < (F.base : ℚ) ^ (1 - F.digits : ℤ) := zpow_pos base_pos _
  rw [unit_eq, unit_eq]
  linarith [mul_lt_mul_of_pos_right hscaled hscale]

/-- A quotient by an integer that exceeds an integer does so when it is rounded, if its
dividend has been rounded to binary digits. -/
theorem natCast_lt_round_div (hbase : F.base = 2) {k r : ℕ} (hr : 0 < r)
    (hq : q < (2 ^ (F.digits - 1) : ℕ)) (h : (k * r : ℕ) < F.round q) :
    (k : ℚ) < F.round (F.round q / r) := by
  have hr' : (0 : ℚ) < r := by exact_mod_cast hr
  have hdigits := F.digits_pos
  have hd : 0 < F.round q := ((k * r).cast_nonneg).trans_lt h
  have hq' : 0 < q := by
    by_contra hnot
    have hle := round_mono (F := F) (not_lt.1 hnot)
    rw [round_zero] at hle
    linarith
  rcases Nat.eq_zero_or_pos k with rfl | hk
  · rw [Nat.cast_zero]
    exact round_pos (div_pos hd hr')
  have hpow : 2 ^ (F.digits - 1) < F.base ^ F.digits := by
    rw [hbase]
    exact Nat.pow_lt_pow_right (by norm_num) (Nat.sub_lt hdigits one_pos)
  have hround : F.round q ≤ (2 ^ (F.digits - 1) : ℕ) := round_le_natCast hpow hq.le
  set y := F.round q / r with hy
  have hy' : 0 < y := div_pos hd hr'
  have hyround : y ≤ F.round q := div_le_self hd.le (by exact_mod_cast hr)
  rcases le_or_gt ((k + 1 : ℕ) : ℚ) y with hle | hlt
  · -- there is an integer in between
    have hsmall : k + 1 ≤ 2 ^ (F.digits - 1) := by
      exact_mod_cast (hle.trans hyround).trans hround
    have hnext := natCast_le_round (F := F) (hsmall.trans_lt hpow) hle
    refine lt_of_lt_of_le ?_ hnext
    exact_mod_cast k.lt_succ_self
  · have hlog : ∀ x : ℚ, 0 < x → x ≤ (2 ^ (F.digits - 1) : ℕ) → Int.log F.base x < F.digits := by
      intro x hx hle
      refine (Int.lt_zpow_iff_log_lt F.one_lt_base hx).1 (hle.trans_lt ?_)
      rw [zpow_natCast]
      exact_mod_cast hpow
    have hexceeds := natCast_add_unit_le_round hq' (hlog q hq' hq.le) h
    refine natCast_lt_round hy' (hlog y hy' (hyround.trans hround)) ?_
    -- the quotient exceeds the integer by the unit of the dividend, divided
    have hunits := unit_div_mul_lt hbase hk hr hq' h hlt
    rw [hy, lt_div_iff₀ hr']
    push_cast at hexceeds
    linarith

end FloatFormat

end InveniOps.Lib
