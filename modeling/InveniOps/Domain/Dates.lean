import Mathlib.Algebra.GroupWithZero.Nat
import InveniOps.Domain.Types

/-!
# Dates and strings of the runtime

What the language's standard library does with dates and strings, as far as the
domain code relies on it.
-/

namespace InveniOps.Domain

/-- A `Date` object; an `Invalid Date` is `none`. -/
abbrev JsDate := Option Instant

/-- The largest absolute time value of a `Date`. -/
def MAX_TIME : ℤ := 8640000000000000

/-- `new Date(value)` of a number: clipped to the range of dates and truncated. -/
def dateOfNumber (q : ℚ) : JsDate :=
  let t := if 0 ≤ q then q.floor else q.ceil
  if -MAX_TIME ≤ q ∧ q ≤ MAX_TIME then some t else none

/-- Decimal digits, padded with zeros to a width. -/
def padded (width n : ℕ) : String :=
  let digits := toString n
  String.ofList (List.replicate (width - digits.length) '0') ++ digits

/-- Year, month and day of the proleptic Gregorian calendar, from the number of days
since the Unix epoch; the years of the computation begin in March. -/
def civilOfDays (days : ℤ) : ℤ × ℕ × ℕ :=
  let z := days + 719468
  let era := z / 146097
  let dayOfEra := (z % 146097).toNat
  let yearOfEra := (dayOfEra - dayOfEra / 1460 + dayOfEra / 36524 - dayOfEra / 146096) / 365
  let dayOfYear := dayOfEra - (365 * yearOfEra + yearOfEra / 4 - yearOfEra / 100)
  let shifted := (5 * dayOfYear + 2) / 153
  let day := dayOfYear - (153 * shifted + 2) / 5 + 1
  let month := if shifted < 10 then shifted + 3 else shifted - 9
  (yearOfEra + era * 400 + (if month ≤ 2 then 1 else 0), month, day)

/-- The year in the date-time format. -/
def yearDigits (year : ℤ) : String :=
  if 0 ≤ year ∧ year ≤ 9999 then padded 4 year.toNat
  else (if year < 0 then "-" else "+") ++ padded 6 year.natAbs

/-- `Date.toISOString`. -/
def toISOString (t : Instant) : String :=
  let (year, month, day) := civilOfDays (t / 86400000)
  let ms := (t % 86400000).toNat
  yearDigits year ++ "-" ++ padded 2 month ++ "-" ++ padded 2 day ++ "T"
    ++ padded 2 (ms / 3600000) ++ ":" ++ padded 2 (ms / 60000 % 60) ++ ":"
    ++ padded 2 (ms / 1000 % 60) ++ "." ++ padded 3 (ms % 1000) ++ "Z"

/-- The white space and line terminators that `String.trim` removes. -/
def isJsSpace (c : Char) : Bool :=
  let n := c.toNat
  (0x9 ≤ n && n ≤ 0xD) || n == 0x20 || n == 0xA0 || n == 0x1680 || (0x2000 ≤ n && n ≤ 0x200A) ||
    n == 0x2028 || n == 0x2029 || n == 0x202F || n == 0x205F || n == 0x3000 || n == 0xFEFF

/-- `String.trim`, as a list of characters. -/
def trim (s : String) : List Char :=
  ((s.toList.dropWhile isJsSpace).reverse.dropWhile isJsSpace).reverse

/-- `length` counts UTF-16 code units. -/
def utf16Length (cs : List Char) : ℕ := (cs.map fun c => if c.toNat < 0x10000 then 1 else 2).sum

end InveniOps.Domain
