import Mathlib.Data.List.TakeWhile
import InveniOps.WorkItems.RcaForm

/-!
# The values that the RCA form starts from

`buildDefaults` (`features/rca/RcaForm.tsx` of the frontend) prints the first signal, rounded up
to a minute of local time, and the present, which loses its seconds.  The dates pass the form's
own rules if and only if a whole minute lies between the two.
-/

namespace InveniOps.WorkItems

open Domain

/-- A number in a template. -/
def numberText {α : Type} [ToString α] : Option α → String
  | some n => toString n
  | none => "NaN"

/-- `padStart(2, "0")` of a number in a date. -/
def pad : Option ℕ → String
  | some n => padded 2 n
  | none => "NaN"

section

variable (rt : Runtime)

/-- The value of a `datetime-local` field, in the runtime's time zone. -/
def formatDatetimeLocal (date : JsDate) : String :=
  numberText (rt.getFullYear date) ++ "-" ++ pad ((rt.getMonth date).map (· + 1)) ++ "-"
    ++ pad (rt.getDate date) ++ "T" ++ pad (rt.getHours date) ++ ":" ++ pad (rt.getMinutes date)

/-- The date that `defaultStartValue` formats; a comparison with `NaN` is false. -/
def defaultStartDate (date : JsDate) : JsDate :=
  let date :=
    if (rt.getSeconds date).any (0 < ·) || (rt.getMilliseconds date).any (0 < ·) then
      rt.setMinutes date ((rt.getMinutes date).map (· + 1))
    else date
  rt.setSeconds date 0 0

/-- The form's first value of the start time. -/
def defaultStartValue (firstSignalAtIso : String) : String :=
  formatDatetimeLocal rt (defaultStartDate rt (rt.newDate firstSignalAtIso))

/-- `buildDefaults`; `now` is what `new Date()` returns. -/
def buildDefaults (firstSignalAtIso : String) (now : Instant) : RcaFormValues where
  incidentStartTime := defaultStartValue rt firstSignalAtIso
  incidentEndTime := formatDatetimeLocal rt (some now)
  rootCauseCategory := ""
  rootCauseDescription := ""
  fixApplied := ""
  preventionSteps := ""

/-- The form finds no fault with the dates. -/
def PassesDateRules (values : RcaFormValues) (context : RcaValidationContext) : Prop :=
  validateRcaForm rt.newDate values context .incidentStartTime = none ∧
    validateRcaForm rt.newDate values context .incidentEndTime = none

end

/-- A whole minute of local time lies between the first signal and the present, and the years
print with as many digits as the parser asks for. -/
structure DefaultsApart (offset first now : ℤ) : Prop where
  minutes : ceilMinute offset first < floorMinute offset now
  startYear : IsoYear (dateFields (ceilMinute offset first + offset)).year
  endYear : IsoYear (dateFields (now + offset)).year

section

variable {rt : Runtime}

lemma toList_formatDatetimeLocal (rt : Runtime) (t : ℤ) : (formatDatetimeLocal rt (some t)).toList
    = (toString (dateFields (t + rt.offset)).year).toList
      ++ minuteText (dateFields (t + rt.offset)) [] := by
  have hmonth : (dateFields (t + rt.offset)).month - 1 + 1 = (dateFields (t + rt.offset)).month :=
    Nat.sub_add_cancel (civilOfDays_bounds ((t + rt.offset) / 86400000)).1.1
  simp [formatDatetimeLocal, Runtime.getFullYear, Runtime.getMonth, Runtime.getDate,
    Runtime.getHours, Runtime.getMinutes, Runtime.localFields, numberText, pad, minuteText, hmonth]

/-- A text with a character other than white space is not blank. -/
lemma isEmpty_trim_of_mem {s : String} {c : Char} (hc : c ∈ s.toList)
    (hspace : isJsSpace c = false) : (trim s).isEmpty = false := by
  rw [List.isEmpty_eq_false_iff, trim, Ne, List.reverse_eq_nil_iff, List.dropWhile_eq_nil_iff]
  intro hall
  rw [← List.takeWhile_append_dropWhile (p := isJsSpace) (l := s.toList), List.mem_append] at hc
  rcases hc with hc | hc
  · simp [List.mem_takeWhile_imp hc] at hspace
  · simp [hall c (List.mem_reverse.2 hc)] at hspace

/-- The text of a time value is parsed as its local minute, if its year is. -/
lemma parseLocal_formatDatetimeLocal (rt : Runtime) (t : ℤ) :
    parseLocal rt.newDate (formatDatetimeLocal rt (some t))
      = if IsoYear (dateFields (t + rt.offset)).year then timeClip (floorMinute rt.offset t)
        else rt.others (formatDatetimeLocal rt (some t)) := by
  have htext := toList_formatDatetimeLocal rt t
  have hdash : '-' ∈ (formatDatetimeLocal rt (some t)).toList := by
    rw [htext]
    simp [minuteText]
  rw [parseLocal, isEmpty_trim_of_mem hdash (by decide), if_neg (by decide),
    rt.newDate_minuteText htext]

/-- An invalid date is not in the date-time format. -/
lemma parseLocal_invalid : parseLocal rt.newDate (formatDatetimeLocal rt none)
    = rt.others (formatDatetimeLocal rt none) := by
  have htext : formatDatetimeLocal rt none = "NaN-NaN-NaNTNaN:NaN" := rfl
  rw [htext]
  rfl

/-- The start is the first signal rounded up, if both steps stay in the range of dates. -/
lemma defaultStartDate_some (first : ℤ) : defaultStartDate rt (some first)
    = (if (first + rt.offset) % 60000 = 0 then some first else timeClip (first + 60000)).bind
      fun t => timeClip (floorMinute rt.offset t) := by
  have hpos := seconds_or_milliseconds_pos (first + rt.offset)
  have hround : ((rt.getSeconds (some first)).any (0 < ·)
      || (rt.getMilliseconds (some first)).any (0 < ·)) = true ↔
      (first + rt.offset) % 60000 ≠ 0 := by
    rw [← hpos]
    simp [Runtime.getSeconds, Runtime.getMilliseconds, Runtime.localFields]
  rw [defaultStartDate]
  by_cases hwhole : (first + rt.offset) % 60000 = 0
  · rw [if_pos hwhole, if_neg (mt hround.1 (not_not_intro hwhole))]
    exact rt.setSeconds_zero first
  · rw [if_neg hwhole, if_pos (hround.2 hwhole), rt.setMinutes_next]
    cases hnext : timeClip (first + 60000) with
    | none => rfl
    | some t => exact rt.setSeconds_zero t

lemma defaultStartDate_eq {first s : ℤ} (h : defaultStartDate rt (some first) = some s) :
    s = ceilMinute rt.offset first := by
  rw [defaultStartDate_some] at h
  split_ifs at h with hwhole
  · rw [Option.bind_some, timeClip_eq_some] at h
    rw [← h.2, ceilMinute_of_emod_eq hwhole]
  · obtain ⟨t, hnext, ht⟩ := Option.bind_eq_some_iff.1 h
    obtain ⟨-, rfl⟩ := timeClip_eq_some.1 hnext
    obtain ⟨-, rfl⟩ := timeClip_eq_some.1 ht
    rw [ceilMinute_of_emod_ne hwhole]

lemma defaultStartDate_eq_some {first : ℤ} (hmin : -MAX_TIME ≤ first)
    (hmax : first + 60000 ≤ MAX_TIME) :
    defaultStartDate rt (some first) = some (ceilMinute rt.offset first) := by
  have hle : first ≤ ceilMinute rt.offset first := le_ceilMinute
  have hlt : ceilMinute rt.offset first < first + 60000 := ceilMinute_lt
  rw [defaultStartDate_some]
  split_ifs with hwhole
  · rw [Option.bind_some, timeClip_eq_some, ← ceilMinute_of_emod_eq hwhole]
    omega
  · have hnext : timeClip (first + 60000) = some (first + 60000) := by
      rw [timeClip_eq_some]
      omega
    rw [hnext, Option.bind_some, timeClip_eq_some, ← ceilMinute_of_emod_ne hwhole]
    omega

/-- The date rules of the form. -/
lemma passesDateRules_iff (values : RcaFormValues) (context : RcaValidationContext) :
    PassesDateRules rt values context ↔
      ∃ start ∈ parseLocal rt.newDate values.incidentStartTime,
        ∃ finish ∈ parseLocal rt.newDate values.incidentEndTime,
          context.firstSignalAt ≤ start ∧ start ≤ context.now ∧ start < finish ∧
            finish ≤ context.now := by
  rw [PassesDateRules, ← Option.not_isSome_iff_eq_none, ← Option.not_isSome_iff_eq_none,
    isSome_validateRcaForm, isSome_validateRcaForm]
  cases parseLocal rt.newDate values.incidentStartTime
  all_goals cases parseLocal rt.newDate values.incidentEndTime
  all_goals simp [FieldFails, and_assoc]

end

section

variable {offset first now later : ℤ}

lemma parseLocal_defaultStart (hfirst : -MAX_TIME ≤ first ∧ first ≤ MAX_TIME) (rt : Runtime)
    (now : ℤ) :
    parseLocal rt.newDate (buildDefaults rt (toISOString first) now).incidentStartTime
      = parseLocal rt.newDate (formatDatetimeLocal rt (defaultStartDate rt (some first))) := by
  rw [buildDefaults, defaultStartValue, rt.newDate_toISOString hfirst]

/-- In years that the parser reads, the defaults pass the date rules of every runtime if and only
if the first signal, rounded up, lies before the minute of the present. -/
theorem defaults_pass_iff_lt (rt : Runtime) (hmin : -MAX_TIME ≤ first)
    (hmax : first + 60000 ≤ MAX_TIME) (hnow : now ≤ MAX_TIME) (hlater : now ≤ later)
    (hstart : IsoYear (dateFields (ceilMinute rt.offset first + rt.offset)).year)
    (hend : IsoYear (dateFields (now + rt.offset)).year) :
    PassesDateRules rt (buildDefaults rt (toISOString first) now) ⟨first, later⟩ ↔
      ceilMinute rt.offset first < floorMinute rt.offset now := by
  have hceil : first ≤ ceilMinute rt.offset first := le_ceilMinute
  have hround : ceilMinute rt.offset first < first + 60000 := ceilMinute_lt
  have hpast : floorMinute rt.offset now ≤ later := floorMinute_le.trans hlater
  have hparse := parseLocal_defaultStart ⟨hmin, by omega⟩ rt now
  rw [defaultStartDate_eq_some hmin hmax, parseLocal_formatDatetimeLocal, if_pos hstart,
    floorMinute_ceilMinute, timeClip, if_pos ⟨by omega, by omega⟩] at hparse
  have hparseEnd := parseLocal_formatDatetimeLocal rt now
  rw [if_pos hend] at hparseEnd
  rw [passesDateRules_iff, hparse, buildDefaults, hparseEnd]
  constructor
  · rintro ⟨start, hs, finish, hf, -, -, hlt, -⟩
    obtain rfl := Option.some.inj hs
    obtain ⟨-, rfl⟩ := timeClip_eq_some.1 hf
    exact hlt
  · intro hlt
    have hfloor : floorMinute rt.offset now ≤ now := floorMinute_le
    refine ⟨_, rfl, floorMinute rt.offset now, ?_, hceil, hlt.le.trans hpast, hlt, hpast⟩
    exact timeClip_eq_some.2 ⟨by omega, rfl⟩

/-- The defaults of an incident shorter than a minute break the rules, those of an incident of
two minutes do not. -/
theorem defaults_of_duration (rt : Runtime) (hmin : -MAX_TIME ≤ first)
    (hmax : first + 60000 ≤ MAX_TIME) (hnow : now ≤ MAX_TIME)
    (hstart : IsoYear (dateFields (ceilMinute rt.offset first + rt.offset)).year)
    (hend : IsoYear (dateFields (now + rt.offset)).year) :
    (now < first + 60000 →
      ¬ PassesDateRules rt (buildDefaults rt (toISOString first) now) ⟨first, now⟩) ∧
    (first + 120000 ≤ now →
      PassesDateRules rt (buildDefaults rt (toISOString first) now) ⟨first, now⟩) := by
  rw [defaults_pass_iff_lt rt hmin hmax hnow le_rfl hstart hend]
  simp only [floorMinute, ceilMinute]
  omega

/-- A runtime that reads no other text needs the defaults to lie apart. -/
lemma apart_of_passesDateRules (hfirst : -MAX_TIME ≤ first ∧ first ≤ MAX_TIME) {rt : Runtime}
    (hothers : ∀ s, rt.others s = none)
    (hpass : PassesDateRules rt (buildDefaults rt (toISOString first) now) ⟨first, later⟩) :
    DefaultsApart rt.offset first now := by
  obtain ⟨start, hstart, finish, hfinish, -, -, hlt, -⟩ := (passesDateRules_iff _ _).1 hpass
  rw [parseLocal_defaultStart hfirst] at hstart
  rw [buildDefaults, parseLocal_formatDatetimeLocal, hothers] at hfinish
  cases hdate : defaultStartDate rt (some first) with
  | none =>
    rw [hdate, parseLocal_invalid, hothers] at hstart
    cases hstart
  | some s =>
    rw [hdate, parseLocal_formatDatetimeLocal, hothers] at hstart
    obtain rfl := defaultStartDate_eq hdate
    split_ifs at hstart with hstartYear
    · split_ifs at hfinish with hendYear
      · obtain ⟨-, rfl⟩ := timeClip_eq_some.1 hstart
        obtain ⟨-, rfl⟩ := timeClip_eq_some.1 hfinish
        rw [floorMinute_ceilMinute] at hlt
        exact ⟨hlt, hstartYear, hendYear⟩
      · cases hfinish
    · cases hstart

/-- The values that the form starts from pass its date rules, then and later, if and only if
they lie apart. -/
theorem defaults_pass_iff (hfirst : -MAX_TIME ≤ first ∧ first ≤ MAX_TIME)
    (hnow : -MAX_TIME ≤ now ∧ now ≤ MAX_TIME) (hlater : now ≤ later) :
    (∀ rt : Runtime, rt.offset = offset →
      PassesDateRules rt (buildDefaults rt (toISOString first) now) ⟨first, later⟩) ↔
    DefaultsApart offset first now := by
  constructor
  · intro hpass
    exact apart_of_passesDateRules hfirst (fun _ => rfl) (hpass (.strict offset) rfl)
  · rintro ⟨hminutes, hstart, hend⟩ rt rfl
    have hfloor : floorMinute rt.offset now ≤ now := floorMinute_le
    have hgap : first + 60000 ≤ floorMinute rt.offset now := by
      simp only [floorMinute, ceilMinute] at hminutes ⊢
      omega
    exact (defaults_pass_iff_lt rt hfirst.1 (by omega) hnow.2 hlater hstart hend).2 hminutes

end

/-! ### Two incidents -/

theorem defaults_pass_tenMinutes :
    PassesDateRules (.strict 0)
      (buildDefaults (.strict 0) (toISOString 1767261630250) 1767262230250)
      ⟨1767261630250, 1767262231000⟩ :=
  (defaults_pass_iff (by decide) (by decide) (by decide)).2
    ⟨by decide, by decide +kernel, by decide +kernel⟩ (.strict 0) rfl

/-- Fifteen seconds after the first signal, the start lies in the future. -/
theorem defaults_fail : ¬ ∀ (rt : Runtime) (first now : ℤ), -MAX_TIME ≤ first → first ≤ now →
    now ≤ MAX_TIME →
      PassesDateRules rt (buildDefaults rt (toISOString first) now) ⟨first, now⟩ := by
  intro h
  have hpass := h (.strict 0) 1767261630250 1767261645250 (by decide) (by decide) (by decide)
  refine (defaults_of_duration (.strict 0) ?_ ?_ ?_ ?_ ?_).1 ?_ hpass <;> decide +kernel

end InveniOps.WorkItems
