import InveniOps.Domain.LocalTime
import InveniOps.WorkItems.WorkflowService

/-!
# The RCA form

`validateRcaForm` (`features/rca/rcaValidation.ts` of the frontend) next to the server's
`toRcaCandidate` and `validateRca`.  Each of the two validators is compared with what is
wrong with a field; they differ in the white space around a category.
-/

namespace InveniOps.WorkItems

open Domain

/-- The dates are strings of `datetime-local` inputs, empty when unset. -/
structure RcaFormValues where
  incidentStartTime : String
  incidentEndTime : String
  rootCauseCategory : String
  rootCauseDescription : String
  fixApplied : String
  preventionSteps : String

/-- `values[field]`. -/
def RcaFormValues.get (values : RcaFormValues) : RcaField → String
  | .incidentStartTime => values.incidentStartTime
  | .incidentEndTime => values.incidentEndTime
  | .rootCauseCategory => values.rootCauseCategory
  | .rootCauseDescription => values.rootCauseDescription
  | .fixApplied => values.fixApplied
  | .preventionSteps => values.preventionSteps

/-- How the messages name a field. -/
def RCA_FIELD_LABELS : RcaField → String
  | .incidentStartTime => "Start time"
  | .incidentEndTime => "End time"
  | .rootCauseCategory => "Root cause category"
  | .rootCauseDescription => "Root cause description"
  | .fixApplied => "Fix applied"
  | .preventionSteps => "Prevention steps"

/-- The fields with a least length. -/
def TEXT_FIELDS : List RcaField := [.rootCauseDescription, .fixApplied, .preventionSteps]

/-- The messages of a form, at most one for each field. -/
abbrev RcaFieldErrors := RcaField → Option String

/-- `errors[field] = message`, if the condition holds. -/
def RcaFieldErrors.setIf (errors : RcaFieldErrors) (condition : Bool) (field : RcaField)
    (message : String) : RcaFieldErrors :=
  if condition then Function.update errors field (some message) else errors

/-- `errors[field] = message`, if the field has no error and the condition holds. -/
def RcaFieldErrors.setFirst (errors : RcaFieldErrors) (condition : Bool) (field : RcaField)
    (message : String) : RcaFieldErrors :=
  errors.setIf ((errors field).isNone && condition) field message

section

variable (parse : String → JsDate)

/-- `parseLocal`; `parse` is `new Date` on a string. -/
def parseLocal (value : String) : JsDate := if (trim value).isEmpty then none else parse value

/-- Whether the value is one of the categories. -/
def isKnownCategory (value : String) : Bool := ROOT_CAUSE_CATEGORIES.contains value

/-- The body of the loop over the text fields. -/
def checkTextField (values : RcaFormValues) (errors : RcaFieldErrors) (field : RcaField) :
    RcaFieldErrors :=
  let trimmed := utf16Length (trim (values.get field))
  if trimmed = 0 then errors.setIf true field (RCA_FIELD_LABELS field ++ " is required.")
  else errors.setIf (trimmed < MIN_TEXT_FIELD_LENGTH) field
    (RCA_FIELD_LABELS field ++ " must be at least " ++ toString MIN_TEXT_FIELD_LENGTH
      ++ " characters.")

/-- The form's check of all its fields; without a message it is submitted. -/
def validateRcaForm (values : RcaFormValues) (context : RcaValidationContext) :
    RcaFieldErrors :=
  let errors : RcaFieldErrors := fun _ => none
  let start := parseLocal parse values.incidentStartTime
  let finish := parseLocal parse values.incidentEndTime
  let errors := errors.setIf start.isNone .incidentStartTime "Start time is required."
  let errors := errors.setIf finish.isNone .incidentEndTime "End time is required."
  let category := String.ofList (trim values.rootCauseCategory)
  let errors :=
    if category = "" then
      errors.setIf true .rootCauseCategory "Select a root cause category."
    else
      errors.setIf (!isKnownCategory category) .rootCauseCategory
        ("Category must be one of: " ++ ", ".intercalate ROOT_CAUSE_CATEGORIES ++ ".")
  let errors := TEXT_FIELDS.foldl (checkTextField values) errors
  let errors :=
    match start, finish with
    | some start, some finish => errors.setFirst (finish ≤ start) .incidentEndTime
        "End time must be after the start time."
    | _, _ => errors
  let errors :=
    match start with
    | some start =>
      let errors := errors.setFirst (start < context.firstSignalAt) .incidentStartTime
        "Start time can’t be before the incident’s first signal."
      errors.setFirst (context.now < start) .incidentStartTime
        "Start time can’t be in the future."
    | none => errors
  match finish with
  | some finish => errors.setFirst (context.now < finish) .incidentEndTime
      "End time can’t be in the future."
  | none => errors

/-- A date of the body of `handleSubmit`; an absent one is left out. -/
def dateProperty (key value : String) : List (String × Json) :=
  match parseLocal parse value with
  | some date => [(key, .str (toISOString date))]
  | none => []

/-- The body that `handleSubmit` sends. -/
def submitBody (values : RcaFormValues) : Json :=
  .obj (dateProperty parse "incidentStartTime" values.incidentStartTime
    ++ dateProperty parse "incidentEndTime" values.incidentEndTime
    ++ [("rootCauseCategory", .str values.rootCauseCategory),
      ("rootCauseDescription", .str values.rootCauseDescription),
      ("fixApplied", .str values.fixApplied),
      ("preventionSteps", .str values.preventionSteps)])

end

/-! ### What is wrong with a field -/

/-- A field is missing or breaks a rule. -/
def FieldFails (start finish : Option Instant) (known : Bool) (values : RcaFormValues)
    (context : RcaValidationContext) : RcaField → Prop
  | .incidentStartTime => ∀ t ∈ start, t < context.firstSignalAt ∨ context.now < t
  | .incidentEndTime => ∀ t ∈ finish, (∃ s ∈ start, t ≤ s) ∨ context.now < t
  | .rootCauseCategory => known = false
  | field => utf16Length (trim (values.get field)) < MIN_TEXT_FIELD_LENGTH

section

variable {errors : RcaFieldErrors} {condition : Bool} {field field' : RcaField} {message : String}

@[simp] lemma isSome_setIf : (errors.setIf condition field message field').isSome = true ↔
    (errors field').isSome = true ∨ condition = true ∧ field' = field := by
  unfold RcaFieldErrors.setIf
  split_ifs with h
  · rcases eq_or_ne field' field with rfl | hne
    · simp [h]
    · simp [hne]
  · simp [h]

@[simp] lemma isSome_setFirst : (errors.setFirst condition field message field').isSome = true ↔
    (errors field').isSome = true ∨ condition = true ∧ field' = field := by
  rw [RcaFieldErrors.setFirst, isSome_setIf]
  cases h : errors field with
  | none => simp
  | some m =>
    simp only [Option.isNone_some, Bool.false_and, Bool.false_eq_true, false_and, or_false]
    refine ⟨.inl, ?_⟩
    intro h'
    rcases h' with h' | ⟨-, rfl⟩
    · exact h'
    · simp [h]

@[simp] lemma isSome_checkTextField (values : RcaFormValues) :
    (checkTextField values errors field field').isSome = true ↔
      (errors field').isSome = true ∨
        utf16Length (trim (values.get field)) < MIN_TEXT_FIELD_LENGTH ∧ field' = field := by
  unfold checkTextField
  split_ifs with h
  · simp [h, MIN_TEXT_FIELD_LENGTH]
  · simp

/-- The form's errors are on the fields that fail, with the category trimmed. -/
lemma isSome_validateRcaForm (parse : String → JsDate) (values : RcaFormValues)
    (context : RcaValidationContext) (field : RcaField) :
    (validateRcaForm parse values context field).isSome = true ↔
      FieldFails (parseLocal parse values.incidentStartTime)
        (parseLocal parse values.incidentEndTime)
        (isKnownCategory (String.ofList (trim values.rootCauseCategory))) values context
        field := by
  have hblank : isKnownCategory "" = false := by decide
  unfold validateRcaForm
  -- the relational checks run if the dates that they compare are there
  cases parseLocal parse values.incidentStartTime
  all_goals cases parseLocal parse values.incidentEndTime
  all_goals
    split_ifs with hcategory
    · cases field <;> simp [TEXT_FIELDS, FieldFails, hcategory, hblank]
    · cases field <;> simp [TEXT_FIELDS, FieldFails]

end

/-! ### The server's view -/

lemma fields_validateTextField (value : String) (field : RcaField) :
    (validateTextField (some value) field).map (·.field)
      = if utf16Length (trim value) < MIN_TEXT_FIELD_LENGTH then [field] else [] := by
  simp only [validateTextField]
  split_ifs with hblank hshort hshort
  · rfl
  · simp [hblank, MIN_TEXT_FIELD_LENGTH] at hshort
  · rfl
  · rfl

/-- The names of the categories carry no white space. -/
lemma trim_of_isKnownCategory {value : String} (h : isKnownCategory value = true) :
    String.ofList (trim value) = value := by
  have hall : ∀ category ∈ ROOT_CAUSE_CATEGORIES,
      String.ofList (trim category) = category := by
    decide +kernel
  exact hall value (List.contains_iff_mem.1 h)

lemma fields_validateCategory (value : String) :
    (validateCategory (some value)).map (·.field)
      = if isKnownCategory value then [] else [.rootCauseCategory] := by
  have hcontains : ROOT_CAUSE_CATEGORIES.contains value = isKnownCategory value := rfl
  simp only [validateCategory, hcontains]
  split_ifs with hblank hknown
  · -- a known category is not blank
    have hall : ∀ category ∈ ROOT_CAUSE_CATEGORIES, utf16Length (trim category) ≠ 0 := by
      decide +kernel
    exact absurd hblank (hall value (List.contains_iff_mem.1 hknown))
  · rfl
  · rfl
  · rfl

/-- The server's errors are on the fields that fail, with the category as it is. -/
lemma mem_validateRca {rca : RcaCandidate} {start finish : Option Instant}
    {values : RcaFormValues} (context : RcaValidationContext) (field : RcaField)
    (hstart : validDate rca.incidentStartTime = start)
    (hfinish : validDate rca.incidentEndTime = finish)
    (hcategory : rca.rootCauseCategory = some values.rootCauseCategory)
    (hdescription : rca.rootCauseDescription = some values.rootCauseDescription)
    (hfix : rca.fixApplied = some values.fixApplied)
    (hprevention : rca.preventionSteps = some values.preventionSteps) :
    field ∈ (validateRca rca context).map (·.field) ↔
      FieldFails start finish (isKnownCategory values.rootCauseCategory) values context field := by
  simp only [validateRca, hstart, hfinish, hcategory, hdescription, hfix, hprevention,
    List.map_append, fields_validateTextField, fields_validateCategory]
  cases start
  all_goals cases finish
  all_goals
    cases field <;> simp [checkDates, checkDate, FieldFails, requiredError, RcaFormValues.get]

/-- The server parses the dates that the form sends. -/
def ParsesSent (parse parseDate : String → JsDate) (values : RcaFormValues) : Prop :=
  ∀ value ∈ [values.incidentStartTime, values.incidentEndTime], ∀ date ∈ parseLocal parse value,
    parseDate (toISOString date) = some date

/-- It does so in any runtime. -/
lemma parsesSent_newDate (client server : Runtime) (values : RcaFormValues) :
    ParsesSent client.newDate server.newDate values := by
  intro value _ date hdate
  rw [parseLocal] at hdate
  split_ifs at hdate
  · cases hdate
  · exact server.newDate_toISOString (client.newDate_bounds hdate)

section

variable {parse parseDate : String → JsDate} {values : RcaFormValues}

lemma candidate_submitBody (hparse : ParsesSent parse parseDate values) :
    let rca := toRcaCandidate parseDate (submitBody parse values)
    validDate rca.incidentStartTime = parseLocal parse values.incidentStartTime ∧
      validDate rca.incidentEndTime = parseLocal parse values.incidentEndTime ∧
      rca.rootCauseCategory = some values.rootCauseCategory ∧
      rca.rootCauseDescription = some values.rootCauseDescription ∧
      rca.fixApplied = some values.fixApplied ∧
      rca.preventionSteps = some values.preventionSteps := by
  have hstart := hparse values.incidentStartTime (by simp)
  have hfinish := hparse values.incidentEndTime (by simp)
  unfold toRcaCandidate submitBody dateProperty
  cases hs : parseLocal parse values.incidentStartTime
  all_goals cases hf : parseLocal parse values.incidentEndTime
  all_goals
    simp [property, toDate, toOptionalString, validDate, hs, hf, hstart, hfinish]

/-- The form and the server find the same fields at fault if and only if the trimmed
category is not a known one behind white space. -/
theorem sameFields_iff (context : RcaValidationContext)
    (hparse : ParsesSent parse parseDate values) :
    (∀ field, (validateRcaForm parse values context field).isSome = true ↔
      field ∈ (validateRca (toRcaCandidate parseDate (submitBody parse values)) context).map
        (·.field)) ↔
    (isKnownCategory (String.ofList (trim values.rootCauseCategory)) = true →
      String.ofList (trim values.rootCauseCategory) = values.rootCauseCategory) := by
  obtain ⟨hstart, hfinish, hcategory, hdescription, hfix, hprevention⟩ :=
    candidate_submitBody hparse
  have hserver := fun field => mem_validateRca context field hstart hfinish hcategory
    hdescription hfix hprevention
  constructor
  · intro h hknown
    have hfield := h .rootCauseCategory
    rw [isSome_validateRcaForm, hserver] at hfield
    simp only [FieldFails, hknown] at hfield
    refine trim_of_isKnownCategory ?_
    simpa using hfield
  · intro h field
    rw [isSome_validateRcaForm, hserver]
    cases hknown : isKnownCategory (String.ofList (trim values.rootCauseCategory)) with
    | true =>
      -- a known category that is not trimmed away: both sides accept the value
      have htrim := h hknown
      rw [htrim] at hknown
      rw [hknown]
    | false =>
      -- a value that is known is its own trimmed value
      have hunknown : isKnownCategory values.rootCauseCategory = false := by
        by_contra hne
        rw [trim_of_isKnownCategory (by simpa using hne)] at hknown
        exact hne hknown
      rw [hunknown]

end

/-! ### A form -/

/-- An incident of one hour, with a category. -/
def networkForm (category : String) : RcaFormValues where
  incidentStartTime := "2026-01-01T10:00"
  incidentEndTime := "2026-01-01T11:00"
  rootCauseCategory := category
  rootCauseDescription := "A switch lost its uplink."
  fixApplied := "Replaced the switch."
  preventionSteps := "Added a second uplink."

/-- Its first signal, and two hours later. -/
def networkContext : RcaValidationContext := ⟨1767261600000, 1767268800000⟩

theorem sameFields_networkForm :
    (validateRcaForm (Runtime.strict 0).newDate (networkForm "NETWORK") networkContext
        .rootCauseCategory).isSome = true ↔
      .rootCauseCategory ∈ (validateRca (toRcaCandidate (Runtime.strict 0).newDate
        (submitBody (Runtime.strict 0).newDate (networkForm "NETWORK"))) networkContext).map
          (·.field) :=
  (sameFields_iff networkContext (parsesSent_newDate (.strict 0) (.strict 0) _)).2
    (fun _ => by decide +kernel) .rootCauseCategory

/-- The form accepts a category behind white space, which the server rejects. -/
theorem not_sameFields : ¬ ∀ (parse parseDate : String → JsDate) (values : RcaFormValues)
    (context : RcaValidationContext), ParsesSent parse parseDate values → ∀ field,
      ((validateRcaForm parse values context field).isSome = true ↔
        field ∈ (validateRca (toRcaCandidate parseDate (submitBody parse values)) context).map
          (·.field)) := by
  intro h
  have hfield := h (Runtime.strict 0).newDate (Runtime.strict 0).newDate
    (networkForm " NETWORK") networkContext (parsesSent_newDate _ _ _) .rootCauseCategory
  exact absurd hfield (by decide +kernel)

end InveniOps.WorkItems
