import InveniOps.Domain.Calendar

/-!
# Dates as texts, and local time

How the runtime reads the texts of dates, those of `Date.toISOString` among them, and its
`Date` objects in a time zone of a fixed offset.
-/

namespace InveniOps.Domain

/-! ### The date-time format -/

/-- A number of `width` digits, and the text after it. -/
def readNumber (width : ℕ) (text : List Char) : Option (ℕ × List Char) :=
  let digits := text.takeWhile Char.isDigit
  if digits.length = width then
    some (Nat.ofDigitChars 10 digits 0, text.dropWhile Char.isDigit)
  else none

/-- A number behind a separator. -/
def readAfter (separator : Char) (width : ℕ) : List Char → Option (ℕ × List Char)
  | [] => none
  | c :: text => if c = separator then readNumber width text else none

/-- A year of four digits, or of six behind a sign; the year zero has no minus sign. -/
def readYear : List Char → Option (ℤ × List Char)
  | '+' :: text => (readNumber 6 text).map fun (n, rest) => (n, rest)
  | '-' :: text => (readNumber 6 text).bind fun (n, rest) =>
    if n = 0 then none else some (-n, rest)
  | text => (readNumber 4 text).map fun (n, rest) => (n, rest)

/-- Month, day, hours and minutes. -/
def readMinute (text : List Char) : Option ((ℕ × ℕ × ℕ × ℕ) × List Char) := do
  let (month, text) ← readAfter '-' 2 text
  let (day, text) ← readAfter '-' 2 text
  let (hours, text) ← readAfter 'T' 2 text
  let (minutes, text) ← readAfter ':' 2 text
  return ((month, day, hours, minutes), text)

/-- The fields of a text `YYYY-MM-DDTHH:mm`, which is local, or `YYYY-MM-DDTHH:mm:ss.sssZ`,
which is universal. -/
def readDateTime (text : List Char) : Option (DateFields × Bool) := do
  let (year, text) ← readYear text
  let ((month, day, hours, minutes), text) ← readMinute text
  if text = [] then
    return (⟨year, month, day, hours, minutes, 0, 0⟩, false)
  let (seconds, text) ← readAfter ':' 2 text
  let (milliseconds, text) ← readAfter '.' 3 text
  if text = ['Z'] then
    return (⟨year, month, day, hours, minutes, seconds, milliseconds⟩, true)
  none

/-- A number does not go on in the text. -/
def NoDigitAhead (text : List Char) : Prop := ∀ c ∈ text.head?, c.isDigit = false

@[simp] lemma noDigitAhead_nil : NoDigitAhead [] := by
  simp [NoDigitAhead]

@[simp] lemma noDigitAhead_cons {c : Char} {text : List Char} :
    NoDigitAhead (c :: text) ↔ c.isDigit = false := by
  simp [NoDigitAhead]

section

variable {width n : ℕ} {digits rest : List Char}

lemma readNumber_append (hdigits : ∀ c ∈ digits, c.isDigit = true)
    (hrest : NoDigitAhead rest) :
    readNumber width (digits ++ rest)
      = if digits.length = width then some (Nat.ofDigitChars 10 digits 0, rest) else none := by
  have hsplit : rest.takeWhile Char.isDigit = [] ∧ rest.dropWhile Char.isDigit = rest := by
    cases rest with
    | nil => exact ⟨rfl, rfl⟩
    | cons c text =>
      have hc := hrest c rfl
      simp [hc]
  rw [readNumber, List.takeWhile_append_of_pos hdigits, List.dropWhile_append_of_pos hdigits,
    hsplit.1, hsplit.2, List.append_nil]

lemma toList_padded : (padded width n).toList
    = List.replicate (width - (Nat.toDigits 10 n).length) '0' ++ Nat.toDigits 10 n := by
  rw [padded, String.toList_append, String.toList_ofList, Nat.toString_eq_repr, Nat.toList_repr,
    ← String.length_toList, Nat.toList_repr]

lemma length_toList_padded (hn : n < 10 ^ width) (hwidth : 0 < width) :
    (padded width n).toList.length = width := by
  have hlength := (Nat.length_toDigits_le_iff (by decide) hwidth).2 hn
  rw [toList_padded, List.length_append, List.length_replicate, Nat.sub_add_cancel hlength]

lemma isDigit_of_mem_padded {c : Char} (h : c ∈ (padded width n).toList) : c.isDigit = true := by
  rw [toList_padded, List.mem_append] at h
  rcases h with h | h
  · rw [List.eq_of_mem_replicate h]
    decide
  · exact Nat.isDigit_of_mem_toDigits (by decide) (by decide) h

lemma ofDigitChars_padded : Nat.ofDigitChars 10 (padded width n).toList 0 = n := by
  rw [toList_padded, Nat.ofDigitChars_append, Nat.ofDigitChars_replicate_zero, Nat.mul_zero,
    Nat.ofDigitChars_ten_toDigits]

lemma readNumber_padded (hn : n < 10 ^ width) (hwidth : 0 < width)
    (hrest : NoDigitAhead rest) :
    readNumber width ((padded width n).toList ++ rest) = some (n, rest) := by
  rw [readNumber_append (fun c => isDigit_of_mem_padded) hrest,
    if_pos (length_toList_padded hn hwidth), ofDigitChars_padded]

lemma readAfter_padded (separator : Char) (hn : n < 10 ^ width) (hwidth : 0 < width)
    (hrest : NoDigitAhead rest) :
    readAfter separator width (separator :: ((padded width n).toList ++ rest))
      = some (n, rest) := by
  rw [readAfter, if_pos rfl, readNumber_padded hn hwidth hrest]

/-- Without a sign, a year has four digits. -/
lemma readYear_append (hdigits : ∀ c ∈ digits, c.isDigit = true) (hne : digits ≠ [])
    (hrest : NoDigitAhead rest) :
    readYear (digits ++ rest)
      = if digits.length = 4 then some ((Nat.ofDigitChars 10 digits 0 : ℤ), rest) else none := by
  obtain ⟨c, cs, rfl⟩ := List.exists_cons_of_ne_nil hne
  have hc := hdigits c List.mem_cons_self
  have hyear : readYear (c :: cs ++ rest)
      = (readNumber 4 (c :: cs ++ rest)).map fun (n, rest) => ((n : ℤ), rest) := by
    rw [List.cons_append, readYear]
    · rintro text ⟨rfl, -⟩
      exact absurd hc (by decide)
    · rintro text ⟨rfl, -⟩
      exact absurd hc (by decide)
  rw [hyear, readNumber_append hdigits hrest]
  split_ifs <;> rfl

lemma readYear_padded (hn : n < 10 ^ 4) (hrest : NoDigitAhead rest) :
    readYear ((padded 4 n).toList ++ rest) = some ((n : ℤ), rest) := by
  have hlength := length_toList_padded hn (by decide)
  have hne : (padded 4 n).toList ≠ [] := by
    intro hnil
    simp [hnil] at hlength
  rw [readYear_append (fun c => isDigit_of_mem_padded) hne hrest, if_pos hlength,
    ofDigitChars_padded]

lemma length_toDigits_eq_iff {k : ℕ} (hk : 0 < k) :
    (Nat.toDigits 10 n).length = k + 1 ↔ 10 ^ k ≤ n ∧ n < 10 ^ (k + 1) := by
  have hlow := Nat.length_toDigits_le_iff (n := n) (by decide : 1 < 10) hk
  have hhigh := Nat.length_toDigits_le_iff (n := n) (by decide : 1 < 10) (Nat.succ_pos k)
  omega

end

/-- The years that read back when they are printed without padding. -/
def IsoYear (year : ℤ) : Prop := (1000 ≤ year ∧ year ≤ 9999) ∨ (-999999 ≤ year ∧ year ≤ -100000)

instance (year : ℤ) : Decidable (IsoYear year) := inferInstanceAs (Decidable (_ ∨ _))

lemma readYear_toString (year : ℤ) (rest : List Char) :
    readYear ((toString year).toList ++ '-' :: rest)
      = if IsoYear year then some (year, '-' :: rest) else none := by
  have hrest : NoDigitAhead ('-' :: rest) := by simp
  cases year with
  | ofNat n =>
    have hdigits : (toString (Int.ofNat n)).toList = Nat.toDigits 10 n := Nat.toList_repr
    have hlength := length_toDigits_eq_iff (n := n) (k := 3) (by decide)
    rw [hdigits, readYear_append (fun c => Nat.isDigit_of_mem_toDigits (by decide) (by decide))
      Nat.toDigits_ne_nil hrest, Nat.ofDigitChars_ten_toDigits]
    refine if_congr ?_ rfl rfl
    rw [hlength, IsoYear]
    simp only [Int.ofNat_eq_natCast]
    omega
  | negSucc n =>
    have hdigits : (toString (Int.negSucc n)).toList = '-' :: Nat.toDigits 10 (n + 1) := by
      rw [Int.toString_eq_repr, Int.repr_eq_if, if_neg (by omega), String.toList_append,
        Nat.toList_repr]
      rfl
    have hlength := length_toDigits_eq_iff (n := n + 1) (k := 5) (by decide)
    rw [hdigits, List.cons_append, readYear, readNumber_append
      (fun c => Nat.isDigit_of_mem_toDigits (by decide) (by decide)) hrest,
      Nat.ofDigitChars_ten_toDigits]
    have hiff : (Nat.toDigits 10 (n + 1)).length = 6 ↔ IsoYear (Int.negSucc n) := by
      rw [hlength, IsoYear]
      omega
    rcases em ((Nat.toDigits 10 (n + 1)).length = 6) with h | h
    · rw [if_pos h, if_pos (hiff.1 h)]
      rfl
    · rw [if_neg h, if_neg (mt hiff.2 h)]
      rfl

/-- A year that fits its digits is read back. -/
lemma readYear_yearDigits {year : ℤ} (hyear : -999999 ≤ year ∧ year ≤ 999999)
    (rest : List Char) :
    readYear ((yearDigits year).toList ++ '-' :: rest) = some (year, '-' :: rest) := by
  have hrest : NoDigitAhead ('-' :: rest) := by simp
  rw [yearDigits]
  split_ifs with hfour hneg
  · have hnat : ((year.toNat : ℕ) : ℤ) = year := Int.toNat_of_nonneg hfour.1
    rw [readYear_padded (by omega) hrest, hnat]
  · have hread := readNumber_padded (by omega : year.natAbs < 10 ^ 6) (by decide) hrest
    have hsign : ("-" ++ padded 6 year.natAbs).toList = '-' :: (padded 6 year.natAbs).toList := by
      rw [String.toList_append]
      rfl
    have hneg' : -((year.natAbs : ℕ) : ℤ) = year := by omega
    simp only [hsign, List.cons_append, readYear, hread, Option.bind_some, hneg',
      if_neg (by omega : year.natAbs ≠ 0)]
  · have hread := readNumber_padded (by omega : year.natAbs < 10 ^ 6) (by decide) hrest
    have hsign : ("+" ++ padded 6 year.natAbs).toList = '+' :: (padded 6 year.natAbs).toList := by
      rw [String.toList_append]
      rfl
    have hpos : ((year.natAbs : ℕ) : ℤ) = year := by omega
    simp only [hsign, List.cons_append, readYear, hread, Option.map_some, hpos]

section

variable {yearText rest : List Char}

/-- A date behind its year, down to the minute. -/
def minuteText (f : DateFields) (rest : List Char) : List Char :=
  '-' :: ((padded 2 f.month).toList ++ '-' :: ((padded 2 f.day).toList
    ++ 'T' :: ((padded 2 f.hours).toList ++ ':' :: ((padded 2 f.minutes).toList ++ rest))))

lemma readMinute_minuteText (t : ℤ) (hrest : NoDigitAhead rest) :
    readMinute (minuteText (dateFields t) rest)
      = some (((dateFields t).month, (dateFields t).day, (dateFields t).hours,
        (dateFields t).minutes), rest) := by
  obtain ⟨hmonth, hday, hhours, hminutes, -, -⟩ := bounds_dateFields t
  simp (disch := first | assumption | decide | simp) only [readMinute, minuteText,
    readAfter_padded, Option.bind_eq_bind, Option.bind_some, Option.pure_def]

/-- The text of a minute is read in local time. -/
lemma readDateTime_minuteText (t : ℤ) {year : ℤ}
    (hyear : readYear (yearText ++ minuteText (dateFields t) [])
      = some (year, minuteText (dateFields t) [])) :
    readDateTime (yearText ++ minuteText (dateFields t) [])
      = some ({ dateFields t with year := year, seconds := 0, milliseconds := 0 }, false) := by
  simp [readDateTime, hyear, readMinute_minuteText]

/-- The text of a time value is read in universal time. -/
lemma readDateTime_toISOString {t : ℤ} (ht : -MAX_TIME ≤ t ∧ t ≤ MAX_TIME) :
    readDateTime (toISOString t).toList = some (dateFields t, true) := by
  obtain ⟨-, -, -, -, hseconds, hms⟩ := bounds_dateFields t
  have htext : (toISOString t).toList = (yearDigits (dateFields t).year).toList
      ++ minuteText (dateFields t) (':' :: ((padded 2 (dateFields t).seconds).toList
        ++ '.' :: ((padded 3 (dateFields t).milliseconds).toList ++ ['Z']))) := by
    simp [toISOString, minuteText, dateFields]
  have hyear (text : List Char) : readYear ((yearDigits (dateFields t).year).toList
      ++ minuteText (dateFields t) text)
      = some ((dateFields t).year, minuteText (dateFields t) text) :=
    readYear_yearDigits (bounds_year ht) _
  rw [htext]
  simp (disch := first | assumption | decide | simp) only [readDateTime, hyear,
    readMinute_minuteText, readAfter_padded, Option.bind_eq_bind, Option.bind_some,
    Option.pure_def, reduceCtorEq, if_false, if_true]

end

/-! ### The runtime's dates -/

/-- `TimeClip`. -/
def timeClip (t : ℤ) : JsDate := if -MAX_TIME ≤ t ∧ t ≤ MAX_TIME then some t else none

/-- A runtime in a time zone of a fixed offset. -/
structure Runtime where
  /-- Local time minus universal time. -/
  offset : ℤ
  /-- What it makes of a text in neither of the forms of `readDateTime`. -/
  others : String → JsDate
  others_bounds : ∀ s, ∀ t ∈ others s, -MAX_TIME ≤ t ∧ t ≤ MAX_TIME

/-- The runtime of a time zone that reads no other text. -/
def Runtime.strict (offset : ℤ) : Runtime := ⟨offset, fun _ => none, by simp⟩

lemma timeClip_eq_some {t s : ℤ} : timeClip t = some s ↔
    (-MAX_TIME ≤ t ∧ t ≤ MAX_TIME) ∧ t = s := by
  rw [timeClip]
  split_ifs with h
  · simp [h]
  · simp [h]

namespace Runtime

variable (rt : Runtime)

/-- The date of a local time. -/
def ofLocal (f : DateFields) : JsDate := timeClip (f.time - rt.offset)

/-- `new Date` of a string. -/
def newDate (s : String) : JsDate :=
  match readDateTime s.toList with
  | some (f, universal) =>
    if f.Legal then (if universal then timeClip f.time else rt.ofLocal f) else rt.others s
  | none => rt.others s

/-- The fields in local time; those of an invalid date are not numbers. -/
def localFields (date : JsDate) : Option DateFields :=
  date.map fun t => dateFields (t + rt.offset)

/-- `getFullYear`, in local time as the other methods. -/
def getFullYear (date : JsDate) : Option ℤ := (rt.localFields date).map (·.year)

/-- Months count from zero. -/
def getMonth (date : JsDate) : Option ℕ := (rt.localFields date).map (·.month - 1)

/-- `getDate`. -/
def getDate (date : JsDate) : Option ℕ := (rt.localFields date).map (·.day)

/-- `getHours`. -/
def getHours (date : JsDate) : Option ℕ := (rt.localFields date).map (·.hours)

/-- `getMinutes`. -/
def getMinutes (date : JsDate) : Option ℕ := (rt.localFields date).map (·.minutes)

/-- `getSeconds`. -/
def getSeconds (date : JsDate) : Option ℕ := (rt.localFields date).map (·.seconds)

/-- `getMilliseconds`. -/
def getMilliseconds (date : JsDate) : Option ℕ := (rt.localFields date).map (·.milliseconds)

/-- `setMinutes`. -/
def setMinutes (date : JsDate) (minutes : Option ℕ) : JsDate := do
  let f ← rt.localFields date
  let minutes ← minutes
  rt.ofLocal { f with minutes := minutes }

/-- `setSeconds`, with the milliseconds. -/
def setSeconds (date : JsDate) (seconds milliseconds : ℕ) : JsDate := do
  let f ← rt.localFields date
  rt.ofLocal { f with seconds := seconds, milliseconds := milliseconds }

/-- Every date that is read lies in the range of dates. -/
lemma newDate_bounds {s : String} {t : ℤ} (h : rt.newDate s = some t) :
    -MAX_TIME ≤ t ∧ t ≤ MAX_TIME := by
  have hclip {u : ℤ} (hu : timeClip u = some t) : -MAX_TIME ≤ t ∧ t ≤ MAX_TIME := by
    obtain ⟨hbounds, rfl⟩ := timeClip_eq_some.1 hu
    exact hbounds
  unfold newDate at h
  split at h
  · split_ifs at h
    · exact hclip h
    · exact hclip h
    · exact rt.others_bounds s t h
  · exact rt.others_bounds s t h

/-- A time value survives its text. -/
theorem newDate_toISOString {t : ℤ} (ht : -MAX_TIME ≤ t ∧ t ≤ MAX_TIME) :
    rt.newDate (toISOString t) = some t := by
  rw [newDate, readDateTime_toISOString ht]
  simp only [legal_dateFields t, time_dateFields, timeClip, ht, and_self, if_true]

end Runtime

/-! ### Whole minutes -/

/-- The last whole minute of local time up to `t`. -/
def floorMinute (offset t : ℤ) : ℤ := t - (t + offset) % 60000

/-- The first whole minute of local time from `t` on. -/
def ceilMinute (offset t : ℤ) : ℤ := t + -(t + offset) % 60000

section

variable {offset t : ℤ}

lemma floorMinute_le : floorMinute offset t ≤ t := by
  rw [floorMinute]
  omega

lemma le_ceilMinute : t ≤ ceilMinute offset t := by
  rw [ceilMinute]
  omega

lemma ceilMinute_lt : ceilMinute offset t < t + 60000 := by
  rw [ceilMinute]
  omega

lemma floorMinute_ceilMinute : floorMinute offset (ceilMinute offset t) = ceilMinute offset t := by
  simp only [floorMinute, ceilMinute]
  omega

lemma ceilMinute_of_emod_eq (h : (t + offset) % 60000 = 0) :
    ceilMinute offset t = floorMinute offset t := by
  simp only [floorMinute, ceilMinute]
  omega

lemma ceilMinute_of_emod_ne (h : (t + offset) % 60000 ≠ 0) :
    ceilMinute offset t = floorMinute offset (t + 60000) := by
  simp only [floorMinute, ceilMinute]
  omega

end

namespace Runtime

variable (rt : Runtime)

lemma setMinutes_next (t : ℤ) :
    rt.setMinutes (some t) ((rt.getMinutes (some t)).map (· + 1)) = timeClip (t + 60000) := by
  have htime := time_nextMinute (dateFields (t + rt.offset))
  rw [time_dateFields] at htime
  have hlocal : t + rt.offset + 60000 - rt.offset = t + 60000 := by omega
  simp only [setMinutes, getMinutes, localFields, ofLocal, Option.map_some, Option.bind_eq_bind,
    Option.bind_some, htime, hlocal]

lemma ofLocal_wholeMinute (t : ℤ) :
    rt.ofLocal { dateFields (t + rt.offset) with seconds := 0, milliseconds := 0 }
      = timeClip (floorMinute rt.offset t) := by
  have hlocal : t + rt.offset - (t + rt.offset) % 60000 - rt.offset = floorMinute rt.offset t := by
    rw [floorMinute]
    omega
  rw [ofLocal, time_wholeMinute, hlocal]

lemma setSeconds_zero (t : ℤ) :
    rt.setSeconds (some t) 0 0 = timeClip (floorMinute rt.offset t) := by
  simp only [setSeconds, localFields, Option.map_some, Option.bind_eq_bind, Option.bind_some,
    ofLocal_wholeMinute]

/-- The text of a local minute is read as that minute, if its year is. -/
lemma newDate_minuteText {s : String} {t : ℤ}
    (hs : s.toList = (toString (dateFields (t + rt.offset)).year).toList
      ++ minuteText (dateFields (t + rt.offset)) []) :
    rt.newDate s = if IsoYear (dateFields (t + rt.offset)).year
      then timeClip (floorMinute rt.offset t) else rt.others s := by
  have hyear := readYear_toString (dateFields (t + rt.offset)).year
  rw [newDate, hs]
  split_ifs with h
  · have hread := readDateTime_minuteText (t + rt.offset) ((hyear _).trans (if_pos h))
    have hlegal := legal_dateFields (t + rt.offset - (t + rt.offset) % 60000)
    rw [dateFields_wholeMinute] at hlegal
    simp only [hread, hlegal, ofLocal_wholeMinute, if_true, Bool.false_eq_true, if_false]
  · have hnone : readDateTime ((toString (dateFields (t + rt.offset)).year).toList
        ++ minuteText (dateFields (t + rt.offset)) []) = none := by
      rw [readDateTime, minuteText, hyear, if_neg h]
      rfl
    rw [hnone]

end Runtime

end InveniOps.Domain
