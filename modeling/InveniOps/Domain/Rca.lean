import Mathlib.Algebra.BigOperators.Group.List.Basic
import Mathlib.Algebra.Order.Group.Int
import InveniOps.Domain.Dates
import InveniOps.Domain.State

/-!
# Root cause analyses

`domain/rca`: the validation of a submitted RCA, the guard that it puts on closing
a work item, and the time to repair.
-/

namespace InveniOps.Domain

/-- The categories that an RCA can have. -/
def ROOT_CAUSE_CATEGORIES : List String :=
  ["CODE_DEFECT", "INFRASTRUCTURE_FAILURE", "CONFIGURATION_ERROR", "CAPACITY_EXHAUSTION",
    "EXTERNAL_DEPENDENCY", "NETWORK", "HUMAN_ERROR", "UNKNOWN"]

/-- `RcaRecord` of the domain: a candidate.  An absent field is `none`. -/
structure RcaCandidate where
  incidentStartTime : Option JsDate
  incidentEndTime : Option JsDate
  rootCauseCategory : Option String
  rootCauseDescription : Option String
  fixApplied : Option String
  preventionSteps : Option String

/-- The fields that errors name. -/
inductive RcaField
  | incidentStartTime | incidentEndTime | rootCauseCategory | rootCauseDescription
  | fixApplied | preventionSteps
deriving DecidableEq

/-- The name of a field. -/
def RcaField.name : RcaField → String
  | .incidentStartTime => "incidentStartTime"
  | .incidentEndTime => "incidentEndTime"
  | .rootCauseCategory => "rootCauseCategory"
  | .rootCauseDescription => "rootCauseDescription"
  | .fixApplied => "fixApplied"
  | .preventionSteps => "preventionSteps"

/-- An error of `validateRca`. -/
structure RcaFieldError where
  field : RcaField
  message : String
deriving DecidableEq

/-- What the dates of an RCA are compared with. -/
structure RcaValidationContext where
  firstSignalAt : Instant
  now : Instant

/-- The least length of a text. -/
def MIN_TEXT_FIELD_LENGTH : ℕ := 10

/-- The error of a field that is missing. -/
def requiredError (field : RcaField) : RcaFieldError := ⟨field, field.name ++ " is required."⟩

/-- A text is there, and long enough without its white space. -/
def validateTextField (value : Option String) (field : RcaField) : List RcaFieldError :=
  match value with
  | none => [requiredError field]
  | some value =>
    let trimmed := utf16Length (trim value)
    if trimmed = 0 then [requiredError field]
    else if trimmed < MIN_TEXT_FIELD_LENGTH then
      [⟨field, field.name ++ " must be at least " ++ toString MIN_TEXT_FIELD_LENGTH
        ++ " characters, excluding leading/trailing whitespace."⟩]
    else []

/-- The category is there, and one of the list. -/
def validateCategory (value : Option String) : List RcaFieldError :=
  match value with
  | none => [requiredError .rootCauseCategory]
  | some value =>
    if utf16Length (trim value) = 0 then [requiredError .rootCauseCategory]
    else if ROOT_CAUSE_CATEGORIES.contains value then []
    else [⟨.rootCauseCategory,
      "rootCauseCategory must be one of: " ++ ", ".intercalate ROOT_CAUSE_CATEGORIES ++ "."⟩]

/-- A date that is there and valid. -/
def validDate (value : Option JsDate) : Option Instant := value.bind id

/-- The errors of a check that runs once both dates are valid. -/
def checkDates (start finish : Option Instant) (fails : Instant → Instant → Bool)
    (error : RcaFieldError) : List RcaFieldError :=
  match start, finish with
  | some start, some finish => if fails start finish then [error] else []
  | _, _ => []

/-- The errors of a check that runs once its date is valid. -/
def checkDate (date : Option Instant) (fails : Instant → Bool) (error : RcaFieldError) :
    List RcaFieldError :=
  match date with
  | some date => if fails date then [error] else []
  | none => []

/-- `validateRca`: the errors, none if the candidate is valid. -/
def validateRca (rca : RcaCandidate) (context : RcaValidationContext) : List RcaFieldError :=
  let start := validDate rca.incidentStartTime
  let finish := validDate rca.incidentEndTime
  (if start.isNone then [requiredError .incidentStartTime] else [])
    ++ (if finish.isNone then [requiredError .incidentEndTime] else [])
    ++ validateCategory rca.rootCauseCategory
    ++ validateTextField rca.rootCauseDescription .rootCauseDescription
    ++ validateTextField rca.fixApplied .fixApplied
    ++ validateTextField rca.preventionSteps .preventionSteps
    ++ checkDates start finish (fun start finish => finish ≤ start)
      ⟨.incidentEndTime, "incidentEndTime must be strictly after incidentStartTime."⟩
    ++ checkDate start (· < context.firstSignalAt) ⟨.incidentStartTime,
      "incidentStartTime cannot precede the work item's first signal timestamp."⟩
    ++ checkDate start (context.now < ·)
      ⟨.incidentStartTime, "incidentStartTime cannot be in the future."⟩
    ++ checkDate finish (context.now < ·)
      ⟨.incidentEndTime, "incidentEndTime cannot be in the future."⟩

/-- `createRcaCloseGuard`: without a payload nothing closes. -/
def createRcaCloseGuard (now : Instant) : TransitionGuard RcaCandidate := fun context =>
  match context.payload with
  | none => false
  | some rca => (validateRca rca ⟨context.workItem.firstSignalAt, now⟩).isEmpty

/-- `calculateMttr`: the seconds, or the message of a clock skew.  Halves round up. -/
def calculateMttr (firstSignalAt rcaSubmittedAt : Instant) : Except String ℤ :=
  let diffMs := rcaSubmittedAt - firstSignalAt
  if diffMs < 0 then
    .error ("rcaSubmittedAt (" ++ toISOString rcaSubmittedAt ++ ") is before firstSignalAt ("
      ++ toISOString firstSignalAt ++ "); refusing to report a negative MTTR.")
  else .ok ((diffMs + 500) / 1000)

/-! ### Valid candidates -/

/-- What a valid candidate holds. -/
structure ValidRca (rca : RcaCandidate) (context : RcaValidationContext) (start finish : Instant)
    (category description fix prevention : String) : Prop where
  incidentStartTime : rca.incidentStartTime = some (some start)
  incidentEndTime : rca.incidentEndTime = some (some finish)
  rootCauseCategory : rca.rootCauseCategory = some category
  rootCauseDescription : rca.rootCauseDescription = some description
  fixApplied : rca.fixApplied = some fix
  preventionSteps : rca.preventionSteps = some prevention
  notBefore : context.firstSignalAt ≤ start
  ordered : start < finish
  notFuture : finish ≤ context.now

lemma isSome_of_validateTextField {value : Option String} {field : RcaField}
    (h : validateTextField value field = []) : ∃ s, value = some s := by
  cases value with
  | none => simp [validateTextField] at h
  | some s => exact ⟨s, rfl⟩

lemma isSome_of_validateCategory {value : Option String} (h : validateCategory value = []) :
    ∃ s, value = some s := by
  cases value with
  | none => simp [validateCategory] at h
  | some s => exact ⟨s, rfl⟩

lemma eq_of_validDate {value : Option JsDate} {t : Instant} (h : validDate value = some t) :
    value = some (some t) := by
  cases value with
  | none => cases h
  | some date => exact congrArg some h

/-- A candidate without errors has every field, and its dates are in order. -/
lemma validRca_of_validateRca {rca : RcaCandidate} {context : RcaValidationContext}
    (h : validateRca rca context = []) : ∃ start finish category description fix prevention,
      ValidRca rca context start finish category description fix prevention := by
  simp only [validateRca, List.append_eq_nil_iff] at h
  obtain ⟨⟨⟨⟨⟨⟨⟨⟨⟨hstart, hfinish⟩, hcategory⟩, hdescription⟩, hfix⟩, hprevention⟩, hordered⟩,
    hnotBefore⟩, -⟩, hnotFuture⟩ := h
  obtain ⟨category, hcategory⟩ := isSome_of_validateCategory hcategory
  obtain ⟨description, hdescription⟩ := isSome_of_validateTextField hdescription
  obtain ⟨fix, hfix⟩ := isSome_of_validateTextField hfix
  obtain ⟨prevention, hprevention⟩ := isSome_of_validateTextField hprevention
  cases hs : validDate rca.incidentStartTime with
  | none => simp [hs] at hstart
  | some start => cases hf : validDate rca.incidentEndTime with
    | none => simp [hf] at hfinish
    | some finish =>
      rw [hs] at hordered hnotBefore
      rw [hf] at hordered hnotFuture
      simp only [checkDates, checkDate, decide_eq_true_eq, ite_eq_right_iff, List.cons_ne_nil,
        imp_false, not_le, not_lt] at hordered hnotBefore hnotFuture
      exact ⟨start, finish, category, description, fix, prevention, eq_of_validDate hs,
        eq_of_validDate hf, hcategory, hdescription, hfix, hprevention, hnotBefore, hordered,
        hnotFuture⟩

/-- The time to repair of a valid RCA is never refused. -/
lemma calculateMttr_ok_of_valid {rca : RcaCandidate} {context : RcaValidationContext}
    (h : validateRca rca context = []) :
    ∃ mttr, calculateMttr context.firstSignalAt context.now = .ok mttr := by
  obtain ⟨start, finish, _, _, _, _, hvalid⟩ := validRca_of_validateRca h
  have hle : context.firstSignalAt ≤ context.now :=
    hvalid.notBefore.trans (hvalid.ordered.le.trans hvalid.notFuture)
  exact ⟨_, if_neg (not_lt.2 (Int.sub_nonneg_of_le hle))⟩

end InveniOps.Domain
