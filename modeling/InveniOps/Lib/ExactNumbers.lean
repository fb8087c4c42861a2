import Mathlib.Algebra.Order.Ring.Abs
import Mathlib.Data.Rat.Lemmas
import InveniOps.Lib.Numerals

/-!
# Numbers without rounding

The finite decimals as a number format: sums and differences of its numbers are numbers of
the format, so that arithmetic is exact.  Every finite floating-point number is among them.
The file also has the operations of ECMAScript on such numbers.
-/

namespace InveniOps.Lib

/-- The number has a finite decimal expansion. -/
def IsDecimal (q : ℚ) : Prop := q.den ∣ 10 ^ q.den

instance : DecidablePred IsDecimal := fun q => inferInstanceAs (Decidable (q.den ∣ 10 ^ q.den))

/-- A finite number of the language. -/
abbrev FiniteNumber := {q : ℚ // IsDecimal q}

lemma dvd_ten_pow_self {d k : ℕ} (h : d ∣ 10 ^ k) : d ∣ 10 ^ d := by
  induction d using Nat.strongRecOn with
  | ind d ih =>
    have hpos : 0 < d := Nat.pos_of_dvd_of_pos h (by positivity)
    by_cases hone : d = 1
    · exact hone ▸ one_dvd _
    · -- a factor that `d` shares with ten
      have hgcd : 1 < Nat.gcd d 10 := by
        by_contra hnot
        have hcoprime : Nat.Coprime d (10 ^ k) := by
          refine Nat.Coprime.pow_right k ?_
          have hgcd_pos := Nat.gcd_pos_of_pos_left 10 hpos
          unfold Nat.Coprime
          omega
        exact hone (hcoprime.eq_one_of_dvd h)
      obtain ⟨c, hc⟩ := Nat.gcd_dvd_left d 10
      have hc_pos : 0 < c := by
        rcases Nat.eq_zero_or_pos c with rfl | hpos'
        · omega
        · exact hpos'
      have hlt : c < d := by
        calc c = 1 * c := (one_mul c).symm
          _ < Nat.gcd d 10 * c := Nat.mul_lt_mul_of_pos_right hgcd hc_pos
          _ = d := hc.symm
      have hdvd : c ∣ 10 ^ c := ih c hlt ((Dvd.intro_left _ hc.symm).trans h)
      have hten : d ∣ 10 ^ (c + 1) := by
        conv_lhs => rw [hc]
        rw [pow_succ']
        exact Nat.mul_dvd_mul (Nat.gcd_dvd_right d 10) hdvd
      exact hten.trans (pow_dvd_pow 10 hlt)

namespace IsDecimal

variable {x y : ℚ}

lemma of_dvd {k : ℕ} (h : x.den ∣ 10 ^ k) : IsDecimal x := dvd_ten_pow_self h

lemma natCast (n : ℕ) : IsDecimal n := of_dvd (k := 0) (by simp)

lemma add (hx : IsDecimal x) (hy : IsDecimal y) : IsDecimal (x + y) := by
  refine of_dvd (k := x.den + y.den) ((Rat.add_den_dvd x y).trans ?_)
  rw [pow_add]
  exact Nat.mul_dvd_mul hx hy

lemma abs (hx : IsDecimal x) : IsDecimal |x| := by
  rcases abs_choice x with h | h
  · rwa [h]
  · rw [h]
    exact of_dvd (k := x.den) hx

lemma sum {l : List ℚ} (h : ∀ x ∈ l, IsDecimal x) : IsDecimal l.sum := by
  induction l with
  | nil => exact natCast 0
  | cons x l ih =>
    rw [List.sum_cons]
    exact (h x List.mem_cons_self).add (ih fun y hy => h y (List.mem_cons_of_mem _ hy))

end IsDecimal

/-! ### The format -/

/-- The decimal without the zeros at the end of its significand. -/
def stripZeros : ℕ → ℕ → ℤ → Decimal
  | 0, significand, exponent => ⟨significand, exponent⟩
  | fuel + 1, significand, exponent =>
    if significand ≠ 0 ∧ significand % 10 = 0 then
      stripZeros fuel (significand / 10) (exponent + 1)
    else ⟨significand, exponent⟩

lemma value_stripZeros (fuel significand : ℕ) (exponent : ℤ) :
    (stripZeros fuel significand exponent).value = (Decimal.mk significand exponent).value := by
  induction fuel generalizing significand exponent with
  | zero => rfl
  | succ fuel ih =>
    unfold stripZeros
    split_ifs with hzero
    · have hten : 10 ^ 1 * (significand / 10) = significand := by omega
      rw [ih, ← Nat.cast_one, ← value_mk_add, hten]
    · rfl

/-- The decimal of a number, to as many places as its denominator. -/
def decimalOf (q : ℚ) : Decimal :=
  let significand := (q * 10 ^ q.den).num.toNat
  stripZeros (Nat.toDigits 10 significand).length significand (-q.den)

lemma value_decimalOf {q : ℚ} (hnonneg : 0 ≤ q) (h : IsDecimal q) : (decimalOf q).value = q := by
  obtain ⟨c, hc⟩ := h
  have hinteger : q * 10 ^ q.den = ((q.num * c : ℤ) : ℚ) := by
    have hcast : (10 : ℚ) ^ q.den = q.den * c := by exact_mod_cast hc
    rw [hcast, ← mul_assoc, Rat.mul_den_eq_num, Int.cast_mul, Int.cast_natCast]
  have hsignificand : (((q * 10 ^ q.den).num.toNat : ℕ) : ℚ) = q * 10 ^ q.den := by
    have hnum : 0 ≤ q.num * (c : ℤ) := mul_nonneg (Rat.num_nonneg.2 hnonneg) (Int.natCast_nonneg c)
    rw [hinteger, Rat.num_intCast]
    exact_mod_cast Int.toNat_of_nonneg hnum
  have hten : (10 : ℚ) ^ q.den ≠ 0 := by positivity
  rw [decimalOf, value_stripZeros, Decimal.value, hsignificand, zpow_neg, zpow_natCast,
    mul_inv_cancel_right₀ hten]

/-- The finite decimals. -/
def NumberFormat.decimals : NumberFormat where
  Magnitude := {q : ℚ // 0 ≤ q ∧ IsDecimal q}
  shortest q := decimalOf q.1
  nearest q := if h : 0 ≤ q ∧ IsDecimal q then some ⟨q, h⟩ else none
  nearest_shortest q := by
    rw [value_decimalOf q.2.1 q.2.2, dif_pos q.2]

/-! ### The numbers of the language -/

/-- A number of the language; its zeros are not told apart. -/
inductive ExactNumber
  | nan
  | infinite (negative : Bool)
  | finite (value : ℚ)
deriving DecidableEq

/-- The number that a number of the format stands for. -/
def JsNumber.exact : JsNumber .decimals → ExactNumber
  | nan => .nan
  | infinite negative => .infinite negative
  | finite negative magnitude => .finite (if negative then -magnitude.1 else magnitude.1)

namespace ExactNumber

/-- The number as a number of the format prints it. -/
def toChars : ExactNumber → List Char
  | nan => (JsNumber.nan : JsNumber .decimals).toChars
  | infinite negative => (JsNumber.infinite negative : JsNumber .decimals).toChars
  | finite value => (JsNumber.ofRat value : JsNumber .decimals).toChars

/-- Subtraction without rounding; the difference of two equal infinities is no number. -/
def sub : ExactNumber → ExactNumber → ExactNumber
  | finite x, finite y => finite (x - y)
  | infinite a, infinite b => if a = b then nan else infinite a
  | infinite a, finite _ => infinite a
  | finite _, infinite b => infinite (!b)
  | nan, _ | _, nan => nan

/-- The product with a finite number. -/
def scale (p : ℚ) : ExactNumber → ExactNumber
  | nan => nan
  | infinite negative => if p = 0 then nan else infinite (negative ^^ decide (p < 0))
  | finite x => finite (p * x)

/-- `Math.max(0, x)` -/
def max0 : ExactNumber → ExactNumber
  | nan => nan
  | infinite negative => if negative then finite 0 else infinite false
  | finite x => finite (max 0 x)

/-- `x <= y` -/
def le : ExactNumber → ExactNumber → Bool
  | nan, _ | _, nan => false
  | infinite true, _ | _, infinite false => true
  | infinite false, _ | _, infinite true => false
  | finite x, finite y => x ≤ y

end ExactNumber

example : (ExactNumber.finite (-1 / 1024)).toChars = "-0.0009765625".toList := by decide +kernel

example : (ExactNumber.finite (10 ^ 21)).toChars = "1e+21".toList := by decide +kernel

lemma exact_amount {q : ℚ} (hnonneg : 0 ≤ q) (h : IsDecimal q) :
    (Amount.ofRat q : Amount .decimals).toNumber.exact = .finite q := by
  have hnearest : NumberFormat.decimals.nearest q = some ⟨q, hnonneg, h⟩ := dif_pos ⟨hnonneg, h⟩
  rw [Amount.ofRat, hnearest]
  rfl

lemma ofRat_eq {q : ℚ} (h : IsDecimal q) : (JsNumber.ofRat q : JsNumber .decimals)
    = .finite (decide (q < 0)) ⟨|q|, abs_nonneg q, h.abs⟩ := by
  have hnearest : NumberFormat.decimals.nearest |q| = some ⟨|q|, abs_nonneg q, h.abs⟩ :=
    dif_pos ⟨abs_nonneg q, h.abs⟩
  rw [JsNumber.ofRat, Amount.ofRat, hnearest]
  rfl

lemma exact_ofRat {q : ℚ} (h : IsDecimal q) :
    (JsNumber.ofRat q : JsNumber .decimals).exact = .finite q := by
  rw [ofRat_eq h]
  show ExactNumber.finite (if decide (q < 0) then -|q| else |q|) = .finite q
  by_cases hnegative : q < 0
  · simp [hnegative, abs_of_neg hnegative]
  · simp [hnegative, abs_of_nonneg (not_lt.1 hnegative)]

lemma readNumber_finite {q : ℚ} (h : IsDecimal q) :
    readNumber .decimals (ExactNumber.finite q).toChars = JsNumber.ofRat q := by
  rw [ExactNumber.toChars, ofRat_eq h]
  refine readNumber_toChars_finite fun hnegative hzero => ?_
  have hvalue := value_decimalOf (abs_nonneg q) h.abs
  have hzero' : (decimalOf |q|).significand = 0 := hzero
  rw [Decimal.value, hzero', Nat.cast_zero, zero_mul] at hvalue
  have hq := abs_eq_zero.1 hvalue.symm
  simp [hq] at hnegative

/-- Different numbers have different texts. -/
lemma toChars_injective {x y : ℚ} (hx : IsDecimal x) (hy : IsDecimal y)
    (h : (ExactNumber.finite x).toChars = (ExactNumber.finite y).toChars) : x = y := by
  have hexact : (JsNumber.ofRat x : JsNumber .decimals).exact
      = (JsNumber.ofRat y : JsNumber .decimals).exact := by
    rw [← readNumber_finite hx, ← readNumber_finite hy, h]
  rw [exact_ofRat hx, exact_ofRat hy] at hexact
  exact ExactNumber.finite.inj hexact

/-- A text that is no number is not the text of a finite one. -/
lemma toChars_ne_of_nan {x : ℚ} (hx : IsDecimal x) {text : List Char}
    (h : readNumber .decimals text = .nan) : (ExactNumber.finite x).toChars ≠ text := by
  rintro rfl
  rw [readNumber_finite hx, ofRat_eq hx] at h
  cases h

end InveniOps.Lib
