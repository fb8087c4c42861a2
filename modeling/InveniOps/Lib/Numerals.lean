import Mathlib.Algebra.Order.Floor.Ring
import Mathlib.Algebra.Order.Round
import Mathlib.Data.Rat.Floor

/-!
# Numbers as texts

How ECMAScript prints its numbers (`Number::toString`) and reads them (`StringToNumber`).
A number is printed as a decimal that identifies it, and a text is read as the number nearest
to the value of its numeral.
-/

namespace InveniOps.Lib

/-- A number in scientific notation that is not negative. -/
structure Decimal where
  significand : ℕ
  exponent : ℤ

/-- The number that the digits and the power of ten stand for. -/
def Decimal.value (d : Decimal) : ℚ := d.significand * 10 ^ d.exponent

/-- The finite numbers of a floating-point format, without their signs. -/
structure NumberFormat where
  Magnitude : Type
  /-- The decimal with the fewest digits that identifies a number. -/
  shortest : Magnitude → Decimal
  /-- The number that a value is rounded to, if it is not too large. -/
  nearest : ℚ → Option Magnitude
  nearest_shortest : ∀ x, nearest (shortest x).value = some x

/-- The integers alone. -/
def NumberFormat.integers : NumberFormat where
  Magnitude := ℕ
  shortest n := ⟨n, 0⟩
  nearest q := some (round q).toNat
  nearest_shortest n := by
    rw [Decimal.value, zpow_zero, mul_one, round_natCast, Int.toNat_natCast]

variable {F : NumberFormat}

/-- A number of the language. -/
inductive JsNumber (F : NumberFormat)
  | nan
  | infinite (negative : Bool)
  | finite (negative : Bool) (magnitude : F.Magnitude)

/-- A number that is not negative. -/
inductive Amount (F : NumberFormat)
  | finite (magnitude : F.Magnitude)
  | infinite

/-- The nearest number of the format, infinity past its range. -/
def Amount.ofRat (q : ℚ) : Amount F :=
  match F.nearest q with
  | some magnitude => .finite magnitude
  | none => .infinite

/-- The number with this size and this sign. -/
def Amount.withSign (negative : Bool) : Amount F → JsNumber F
  | finite magnitude => .finite negative magnitude
  | infinite => .infinite negative

/-- An amount as a number, with the sign of a positive one. -/
def Amount.toNumber (x : Amount F) : JsNumber F := x.withSign false

/-- The nearest number of the format, with the sign of the rational. -/
def JsNumber.ofRat (q : ℚ) : JsNumber F := (Amount.ofRat |q|).withSign (decide (q < 0))

/-! ### Printing -/

/-- The digits after a point; without any there is no point. -/
def fractionChars (fraction : List Char) : List Char :=
  if fraction = [] then [] else '.' :: fraction

/-- The power of ten behind its `e`, the sign always written. -/
def powerChars : Option ℤ → List Char
  | none => []
  | some n => 'e' :: (if n < 0 then '-' else '+') :: Nat.toDigits 10 n.natAbs

/-- Digits, the digits after a point, and a power of ten. -/
def numeral (whole fraction : List Char) (power : Option ℤ) : List Char :=
  whole ++ (fractionChars fraction ++ powerChars power)

/-- `Number::toString` of a number that is not negative, by the position of its point. -/
def Decimal.toChars (d : Decimal) : List Char :=
  let digits := Nat.toDigits 10 d.significand
  let k : ℤ := digits.length
  let n := d.exponent + k
  if d.significand = 0 then ['0']
  else if k ≤ n ∧ n ≤ 21 then
    numeral (digits ++ List.replicate (n - k).toNat '0') [] none
  else if 0 < n ∧ n ≤ 21 then
    numeral (digits.take n.toNat) (digits.drop n.toNat) none
  else if -6 < n ∧ n ≤ 0 then
    numeral ['0'] (List.replicate (-n).toNat '0' ++ digits) none
  else numeral (digits.take 1) (digits.drop 1) (some (n - 1))

/-- The text of infinity. -/
def infinityChars : List Char := "Infinity".toList

/-- The text of an amount. -/
def Amount.toChars : Amount F → List Char
  | finite magnitude => (F.shortest magnitude).toChars
  | infinite => infinityChars

/-- `Number::toString`; a zero has no sign. -/
def JsNumber.toChars : JsNumber F → List Char
  | nan => "NaN".toList
  | infinite negative => (if negative then ['-'] else []) ++ infinityChars
  | finite negative magnitude =>
    (if negative ∧ (F.shortest magnitude).significand ≠ 0 then ['-'] else [])
      ++ (F.shortest magnitude).toChars

/-! ### Reading -/

/-- The exponent of a numeral, after its `e`. -/
def readSigned (text : List Char) : Option ℤ :=
  let (negative, digits) :=
    match text with
    | '+' :: digits => (false, digits)
    | '-' :: digits => (true, digits)
    | digits => (false, digits)
  if digits = [] ∨ ¬ digits.all Char.isDigit then none
  else some (if negative then -(Nat.ofDigitChars 10 digits 0 : ℤ) else Nat.ofDigitChars 10 digits 0)

/-- The power of ten at the end of a numeral, which may be missing. -/
def readPower : List Char → Option ℤ
  | [] => some 0
  | c :: text => if c = 'e' ∨ c = 'E' then readSigned text else none

/-- The digits after a point, if there is one, and what follows them. -/
def readFraction : List Char → List Char × List Char
  | '.' :: text => (text.takeWhile Char.isDigit, text.dropWhile Char.isDigit)
  | text => ([], text)

/-- The value of a decimal numeral without a sign. -/
def readDecimal (text : List Char) : Option ℚ :=
  let whole := text.takeWhile Char.isDigit
  let (fraction, rest) := readFraction (text.dropWhile Char.isDigit)
  if whole = [] ∧ fraction = [] then none
  else (readPower rest).map fun power =>
    (Decimal.mk (Nat.ofDigitChars 10 (whole ++ fraction) 0) (power - fraction.length)).value

/-- The text behind the sign of a number, as `Number` reads it. -/
def readMagnitude (F : NumberFormat) (negative : Bool) (text : List Char) : JsNumber F :=
  if text = infinityChars then .infinite negative
  else
    match readDecimal text with
    | some value => (Amount.ofRat value).withSign negative
    | none => .nan

/-- The base of an integer with a prefix, by its second character. -/
def baseOf (c : Char) : Option ℕ :=
  if c = 'x' ∨ c = 'X' then some 16
  else if c = 'o' ∨ c = 'O' then some 8
  else if c = 'b' ∨ c = 'B' then some 2
  else none

/-- The value of a digit; no digit has the value 16. -/
def digitValue (c : Char) : ℕ :=
  if c.isDigit then c.toNat - '0'.toNat
  else if 'a' ≤ c ∧ c ≤ 'f' then c.toNat - 'a'.toNat + 10
  else if 'A' ≤ c ∧ c ≤ 'F' then c.toNat - 'A'.toNat + 10
  else 16

/-- A whole number in another base. -/
def readInteger (F : NumberFormat) (base : ℕ) (digits : List Char) : JsNumber F :=
  if digits = [] ∨ digits.any (base ≤ digitValue ·) then .nan
  else
    (Amount.ofRat (digits.foldl (fun value c => base * value + digitValue c) 0 : ℕ)).withSign false

/-- `Number` of a text without white space. -/
def readNumber (F : NumberFormat) (text : List Char) : JsNumber F :=
  match text with
  | [] => (Amount.ofRat 0).withSign false
  | ['0'] => readMagnitude F false text
  | '0' :: c :: digits =>
    match baseOf c with
    | some base => readInteger F base digits
    | none => readMagnitude F false text
  | '+' :: unsigned => readMagnitude F false unsigned
  | '-' :: unsigned => readMagnitude F true unsigned
  | _ => readMagnitude F false text

/-! ### Reading what was printed -/

lemma readPower_powerChars (power : Option ℤ) :
    readPower (powerChars power) = some (power.getD 0) := by
  cases power with
  | none => rfl
  | some n =>
    have hdigits : ¬ (Nat.toDigits 10 n.natAbs = [] ∨
        ¬ (Nat.toDigits 10 n.natAbs).all Char.isDigit = true) := by
      rintro (hnil | hall)
      · exact Nat.toDigits_ne_nil hnil
      · exact hall (List.all_eq_true.2 fun c hc =>
          Nat.isDigit_of_mem_toDigits (by decide) (by decide) hc)
    by_cases hn : n < 0
    · simp only [powerChars, readPower, readSigned, hn, hdigits, Nat.ofDigitChars_ten_toDigits,
        true_or, if_true, if_false, Option.getD_some, Option.some.injEq]
      omega
    · simp only [powerChars, readPower, readSigned, hn, hdigits, Nat.ofDigitChars_ten_toDigits,
        true_or, if_true, if_false, Option.getD_some, Option.some.injEq, Bool.false_eq_true]
      omega

lemma dropWhile_isDigit_powerChars (power : Option ℤ) :
    (powerChars power).takeWhile Char.isDigit = [] ∧
      (powerChars power).dropWhile Char.isDigit = powerChars power := by
  cases power <;> exact ⟨rfl, rfl⟩

lemma readFraction_numeral {fraction : List Char} (h : ∀ c ∈ fraction, c.isDigit = true)
    (power : Option ℤ) :
    readFraction (fractionChars fraction ++ powerChars power) = (fraction, powerChars power) := by
  by_cases hnil : fraction = []
  · subst hnil
    cases power <;> rfl
  · obtain ⟨htake, hdrop⟩ := dropWhile_isDigit_powerChars power
    simp only [fractionChars, hnil, if_false, List.cons_append, readFraction,
      List.takeWhile_append_of_pos h, List.dropWhile_append_of_pos h, htake, hdrop,
      List.append_nil]

/-- The value of a numeral, read from its text. -/
lemma readDecimal_numeral {whole fraction : List Char} (hwhole : ∀ c ∈ whole, c.isDigit = true)
    (hne : whole ≠ []) (hfraction : ∀ c ∈ fraction, c.isDigit = true) (power : Option ℤ) :
    readDecimal (numeral whole fraction power)
      = some (Decimal.mk (Nat.ofDigitChars 10 (whole ++ fraction) 0)
          (power.getD 0 - fraction.length)).value := by
  have hrest : (fractionChars fraction ++ powerChars power).takeWhile Char.isDigit = [] ∧
      (fractionChars fraction ++ powerChars power).dropWhile Char.isDigit
        = fractionChars fraction ++ powerChars power := by
    by_cases hnil : fraction = []
    · subst hnil
      exact dropWhile_isDigit_powerChars power
    · simp only [fractionChars, hnil, if_false]
      exact ⟨rfl, rfl⟩
  have htake : (numeral whole fraction power).takeWhile Char.isDigit = whole := by
    rw [numeral, List.takeWhile_append_of_pos hwhole, hrest.1, List.append_nil]
  have hdrop : (numeral whole fraction power).dropWhile Char.isDigit
      = fractionChars fraction ++ powerChars power := by
    rw [numeral, List.dropWhile_append_of_pos hwhole, hrest.2]
  simp only [readDecimal, htake, hdrop, readFraction_numeral hfraction, hne, false_and, if_false,
    readPower_powerChars, Option.map_some]

variable {d : Decimal}

lemma value_mk_add (significand : ℕ) (m : ℕ) (exponent : ℤ) :
    (Decimal.mk (10 ^ m * significand) exponent).value
      = (Decimal.mk significand (exponent + m)).value := by
  have hten : (10 : ℚ) ≠ 0 := by norm_num
  simp only [Decimal.value, Nat.cast_mul, Nat.cast_pow, Nat.cast_ofNat, zpow_add₀ hten,
    zpow_natCast]
  ring

lemma isDigit_of_mem_digits {c : Char} (h : c ∈ Nat.toDigits 10 d.significand) :
    c.isDigit = true :=
  Nat.isDigit_of_mem_toDigits (by decide) (by decide) h

lemma isDigit_of_mem_replicate {c : Char} {m : ℕ} (h : c ∈ List.replicate m '0') :
    c.isDigit = true := by
  rw [List.eq_of_mem_replicate h]
  rfl

/-- Every text of a decimal is a numeral with its value. -/
lemma exists_numeral (d : Decimal) : ∃ whole fraction power,
    d.toChars = numeral whole fraction power ∧ whole ≠ [] ∧ (∀ c ∈ whole, c.isDigit = true) ∧
      (∀ c ∈ fraction, c.isDigit = true) ∧
      (Decimal.mk (Nat.ofDigitChars 10 (whole ++ fraction) 0)
        (power.getD 0 - fraction.length)).value = d.value := by
  have hne := Nat.toDigits_ne_nil (n := d.significand) (b := 10)
  have hlength : 0 < (Nat.toDigits 10 d.significand).length := List.length_pos_iff.2 hne
  simp only [Decimal.toChars]
  split_ifs with hzero hinteger hpoint hsmall
  · refine ⟨['0'], [], none, rfl, List.cons_ne_nil _ _, by simp, by simp, ?_⟩
    simp [Decimal.value, hzero, Nat.ofDigitChars_cons]
  · -- zeros after the digits
    refine ⟨_, _, _, rfl, by simp [hne], ?_, by simp, ?_⟩
    · intro c hc
      rcases List.mem_append.1 hc with hc | hc
      · exact isDigit_of_mem_digits hc
      · exact isDigit_of_mem_replicate hc
    · have hexponent : (0 : ℤ) - (List.length ([] : List Char) : ℤ)
          + (d.exponent + (Nat.toDigits 10 d.significand).length
            - (Nat.toDigits 10 d.significand).length).toNat = d.exponent := by
        simp only [List.length_nil]
        omega
      rw [List.append_nil, Nat.ofDigitChars_append, Nat.ofDigitChars_ten_toDigits,
        Nat.ofDigitChars_replicate_zero, value_mk_add, Option.getD_none, hexponent]
  · -- a point between the digits
    refine ⟨_, _, _, rfl, ?_, fun c hc => isDigit_of_mem_digits (List.mem_of_mem_take hc),
      fun c hc => isDigit_of_mem_digits (List.mem_of_mem_drop hc), ?_⟩
    · rw [ne_eq, List.take_eq_nil_iff]
      rintro (hnone | hnil)
      · omega
      · exact hne hnil
    · have hexponent : (0 : ℤ) - ((Nat.toDigits 10 d.significand).drop (d.exponent
          + (Nat.toDigits 10 d.significand).length).toNat).length = d.exponent := by
        rw [List.length_drop]
        omega
      rw [List.take_append_drop, Nat.ofDigitChars_ten_toDigits, Option.getD_none, hexponent]
  · -- zeros before the digits
    refine ⟨_, _, _, rfl, List.cons_ne_nil _ _, by simp, ?_, ?_⟩
    · intro c hc
      rcases List.mem_append.1 hc with hc | hc
      · exact isDigit_of_mem_replicate hc
      · exact isDigit_of_mem_digits hc
    · have hexponent : (0 : ℤ) - (List.replicate (-(d.exponent
          + (Nat.toDigits 10 d.significand).length)).toNat '0'
            ++ Nat.toDigits 10 d.significand).length = d.exponent := by
        rw [List.length_append, List.length_replicate]
        omega
      rw [List.singleton_append, Nat.ofDigitChars_cons, Nat.ofDigitChars_append,
        Nat.ofDigitChars_replicate_zero, Option.getD_none, hexponent]
      simp [Nat.ofDigitChars_ten_toDigits, Decimal.value]
  · -- an exponent
    refine ⟨_, _, _, rfl, ?_, fun c hc => isDigit_of_mem_digits (List.mem_of_mem_take hc),
      fun c hc => isDigit_of_mem_digits (List.mem_of_mem_drop hc), ?_⟩
    · simp [hne]
    · have hexponent : d.exponent + (Nat.toDigits 10 d.significand).length - 1
          - ((Nat.toDigits 10 d.significand).drop 1).length = d.exponent := by
        rw [List.length_drop]
        omega
      rw [List.take_append_drop, Nat.ofDigitChars_ten_toDigits, Option.getD_some, hexponent]

lemma readDecimal_toChars (d : Decimal) : readDecimal d.toChars = some d.value := by
  obtain ⟨whole, fraction, power, heq, hne, hwhole, hfraction, hvalue⟩ := exists_numeral d
  rw [heq, readDecimal_numeral hwhole hne hfraction, hvalue]

example : (Decimal.mk 123 (-1)).toChars = "12.3".toList := by decide +kernel

example : (Decimal.mk 123 (-9)).toChars = "1.23e-7".toList := by decide +kernel

/-- The characters of numerals. -/
def isNumeralChar (c : Char) : Bool := c.isDigit || c ∈ ['.', 'e', '+', '-']

lemma isNumeralChar_numeral {whole fraction : List Char} {power : Option ℤ}
    (hwhole : ∀ c ∈ whole, c.isDigit = true) (hfraction : ∀ c ∈ fraction, c.isDigit = true) :
    ∀ c ∈ numeral whole fraction power, isNumeralChar c = true := by
  intro c hc
  simp only [numeral, List.mem_append] at hc
  rcases hc with hc | hc | hc
  · simp [isNumeralChar, hwhole c hc]
  · unfold fractionChars at hc
    split_ifs at hc
    · cases hc
    · rcases List.mem_cons.1 hc with rfl | hc
      · rfl
      · simp [isNumeralChar, hfraction c hc]
  · cases power with
    | none => cases hc
    | some n =>
      simp only [powerChars, List.mem_cons] at hc
      rcases hc with rfl | rfl | hc
      · rfl
      · split_ifs <;> rfl
      · simp [isNumeralChar, Nat.isDigit_of_mem_toDigits (by decide) (by decide) hc]

/-- The text of a decimal starts with a digit. -/
lemma toChars_eq (d : Decimal) : ∃ c text, d.toChars = c :: text ∧ c.isDigit = true ∧
    ∀ e ∈ text, isNumeralChar e = true := by
  obtain ⟨whole, fraction, power, heq, hne, hwhole, hfraction, -⟩ := exists_numeral d
  cases whole with
  | nil => exact absurd rfl hne
  | cons c whole =>
    refine ⟨c, _, heq, hwhole c List.mem_cons_self, fun e he => ?_⟩
    exact isNumeralChar_numeral hwhole hfraction e (List.mem_cons_of_mem _ he)

lemma baseOf_of_isNumeralChar {c : Char} (h : isNumeralChar c = true) : baseOf c = none := by
  have hne : ∀ d : Char, isNumeralChar d = false → c ≠ d := by
    rintro d hd rfl
    rw [h] at hd
    cases hd
  simp only [baseOf, hne 'x' rfl, hne 'X' rfl, hne 'o' rfl, hne 'O' rfl, hne 'b' rfl, hne 'B' rfl,
    or_self, if_false]

lemma readNumber_of_isDigit {c : Char} {text : List Char} (hc : c.isDigit = true)
    (htext : ∀ e ∈ text, isNumeralChar e = true) :
    readNumber F (c :: text) = readMagnitude F false (c :: text) := by
  unfold readNumber
  split
  · rename_i heq
    cases heq
  · rfl
  · rename_i e digits heq
    obtain ⟨rfl, rfl⟩ := List.cons.inj heq
    rw [baseOf_of_isNumeralChar (htext e List.mem_cons_self)]
  · rename_i heq
    obtain ⟨rfl, -⟩ := List.cons.inj heq
    cases hc
  · rename_i heq
    obtain ⟨rfl, -⟩ := List.cons.inj heq
    cases hc
  · rfl

lemma readMagnitude_toChars (negative : Bool) (magnitude : F.Magnitude) :
    readMagnitude F negative (F.shortest magnitude).toChars = .finite negative magnitude := by
  obtain ⟨c, text, heq, hc, -⟩ := toChars_eq (F.shortest magnitude)
  have hinfinity : (F.shortest magnitude).toChars ≠ infinityChars := by
    intro h
    obtain rfl : c = 'I' := Option.some.inj (congrArg List.head? (heq.symm.trans h))
    cases hc
  rw [readMagnitude, if_neg hinfinity, readDecimal_toChars]
  simp only [Amount.ofRat, F.nearest_shortest, Amount.withSign]

/-- A number that is not negative is read back from its text. -/
theorem readNumber_toChars (x : Amount F) : readNumber F x.toChars = x.toNumber := by
  cases x with
  | infinite => rfl
  | finite magnitude =>
    obtain ⟨c, text, heq, hc, htext⟩ := toChars_eq (F.shortest magnitude)
    rw [Amount.toChars, heq, readNumber_of_isDigit hc htext, ← heq, readMagnitude_toChars]
    rfl

/-- A finite number that is not a negative zero is read back from its text. -/
theorem readNumber_toChars_finite {negative : Bool} {magnitude : F.Magnitude}
    (h : negative = true → (F.shortest magnitude).significand ≠ 0) :
    readNumber F (JsNumber.finite negative magnitude).toChars = .finite negative magnitude := by
  cases negative with
  | false => exact readNumber_toChars (.finite magnitude)
  | true =>
    have hsign : (JsNumber.finite true magnitude).toChars
        = '-' :: (F.shortest magnitude).toChars := by
      simp [JsNumber.toChars, h rfl]
    rw [hsign]
    exact readMagnitude_toChars true magnitude

lemma Amount.toChars_ne_nil (x : Amount F) : x.toChars ≠ [] := by
  cases x with
  | infinite => exact List.cons_ne_nil _ _
  | finite magnitude =>
    obtain ⟨c, text, heq, -⟩ := toChars_eq (F.shortest magnitude)
    rw [Amount.toChars, heq]
    exact List.cons_ne_nil _ _

/-- What is printed has the characters of numerals, or of `Infinity`. -/
lemma Amount.chars (x : Amount F) :
    ∀ c ∈ x.toChars, isNumeralChar c = true ∨ c ∈ infinityChars := by
  intro e he
  cases x with
  | infinite => exact .inr he
  | finite magnitude =>
    obtain ⟨c, text, heq, hc, htext⟩ := toChars_eq (F.shortest magnitude)
    rw [Amount.toChars, heq] at he
    rcases List.mem_cons.1 he with rfl | he
    · exact .inl (by simp [isNumeralChar, hc])
    · exact .inl (htext e he)

lemma JsNumber.chars (x : JsNumber F) :
    ∀ c ∈ x.toChars, isNumeralChar c = true ∨ c ∈ infinityChars ∨ c ∈ "NaN".toList := by
  intro c hc
  have hsign : ∀ b : Bool, c ∈ (if b then ['-'] else []) → isNumeralChar c = true := by
    intro b hb
    cases b with
    | false => cases hb
    | true => exact List.mem_singleton.1 hb ▸ rfl
  cases x with
  | nan => exact .inr (.inr hc)
  | infinite negative =>
    rcases List.mem_append.1 hc with hc | hc
    · exact .inl (hsign negative hc)
    · exact .inr (.inl hc)
  | finite negative magnitude =>
    rcases List.mem_append.1 hc with hc | hc
    · exact .inl (hsign (decide (negative ∧ (F.shortest magnitude).significand ≠ 0))
        (by simpa using hc))
    · rcases Amount.chars (.finite magnitude) c hc with h | h
      · exact .inl h
      · exact .inr (.inl h)

end InveniOps.Lib
