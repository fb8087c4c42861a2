import InveniOps.Alerting.EscalationScheduler
import InveniOps.Auth.AuthRuns
import InveniOps.Incidents.Lifecycle
import InveniOps.Incidents.Outcomes
import InveniOps.Ingestion.SignalRoutes

/-!
# Requests that move work items

`handleTransition` and `handleSubmitRca` of `api/routes/workitems.ts` behind `requireAuth`.
The actor of a call of the workflow service is the email of the token that came with the
request; no body names one.  Without a request only the escalation scheduler writes audit
rows, in its own name.
-/

namespace InveniOps.Api

open Lib Stores Auth WorkItems Incidents

/-! ### Requests -/

/-- What a handler reads of the body: the result of `transitionBodySchema`, or the raw RCA. -/
inductive PostBody
  | transition (parsed : Except (List Ingestion.Issue) WorkItemStatus)
  | rca (body : Json)

/-- The state that a body asks for. -/
def PostBody.asksFor : PostBody → Option WorkItemStatus
  | .transition (.ok toState) => some toState
  | .transition (.error _) => none
  | .rca _ => some .CLOSED

/-- What the middleware and the handlers read of a request. -/
structure PostRequest where
  authorization : Option String
  id : WorkItemId
  body : PostBody

/-- A response that is sent without the workflow service. -/
structure Refusal where
  status : ℕ
  error : String
  message : String
  errors : List Ingestion.ValidationFieldError
deriving DecidableEq

/-- The response of `requireAuth`. -/
def Refusal.unauthorized (u : Unauthorized) : Refusal := ⟨401, u.error, u.message, []⟩

/-- The response to a request without an id. -/
def Refusal.idRequired : Refusal := ⟨400, "validation_error", "incident id is required", []⟩

/-- The response to a body that `transitionBodySchema` rejects. -/
def Refusal.invalidTransition (issues : List Ingestion.Issue) : Refusal where
  status := 400
  error := "validation_error"
  message := "invalid transition request"
  errors := issues.map fun issue => ⟨issue.fieldPath, issue.message⟩

/-- `requireAuth` and the handler behind it, up to the call of the workflow service. -/
def PostRequest.accept (cfg : AuthConfig) (request : PostRequest) (verifiedAt now : Instant) :
    Except Refusal WorkflowRequest :=
  match cfg.requireAuth request.authorization verifiedAt with
  | .error u => .error (.unauthorized u)
  | .ok user =>
    if request.id = "" then .error .idRequired
    else
      match request.body with
      | .transition (.error issues) => .error (.invalidTransition issues)
      | .transition (.ok toState) => .ok (.transitionWorkItem request.id toState user.email now)
      | .rca body => .ok (.submitIncidentRca request.id body user.email now)

/-- Who is recorded as the actor of a request. -/
def actorOf : WorkflowRequest → String
  | .transitionWorkItem _ _ actor _ | .submitIncidentRca _ _ actor _ => actor

lemma accept_ok {cfg : AuthConfig} {request : PostRequest} {verifiedAt now : Instant}
    {workflow : WorkflowRequest} (h : request.accept cfg verifiedAt now = .ok workflow) :
    ∃ user, cfg.requireAuth request.authorization verifiedAt = .ok user ∧
      actorOf workflow = user.email ∧ workflow.workItemId = request.id ∧
      request.body.asksFor = some (requestedState workflow) := by
  unfold PostRequest.accept at h
  split at h
  · cases h
  · rename_i user huser
    refine ⟨user, huser, ?_⟩
    split_ifs at h
    split at h
    · cases h
    · rename_i toState hbody
      cases h
      exact ⟨rfl, rfl, by rw [hbody]; rfl⟩
    · rename_i body hbody
      cases h
      exact ⟨rfl, rfl, by rw [hbody]; rfl⟩

/-! ### The system -/

/-- The services behind the routes, and what was sent without them. -/
structure ApiSystem where
  auth : AuthSystem
  incidents : IncidentSystem
  refusals : List Refusal

/-- The events of the routes and the services. -/
inductive ApiEvent
  | auth (e : AuthEvent)
  /-- An event of the incident services that no request brings about. -/
  | incidents (e : IncidentEvent)
  | post (request : PostRequest) (verifiedAt now : Instant)

/-- The event comes about without a request: it is no call of the workflow service, and an
escalation is the scheduler's. -/
def unrequested : IncidentEvent → Bool
  | .start (.workflow _) => false
  | .recordEscalation _ actor _ => actor = Alerting.ESCALATION_ACTOR
  | _ => true

namespace ApiSystem

/-- Nobody has made a request yet. -/
def init (users : UserTable) (buckets : RateLimit.Buckets) : ApiSystem :=
  ⟨.init users buckets, .empty, []⟩

/-- The system behind an event, if the event can happen. -/
def step (cfg : AuthConfig) (services : IncidentServices) (s : ApiSystem) :
    ApiEvent → Option ApiSystem
  | .auth e => (s.auth.step cfg e).map fun auth => { s with auth }
  | .incidents e =>
    if unrequested e then (s.incidents.step services e).map fun incidents => { s with incidents }
    else none
  | .post request verifiedAt now =>
    match request.accept cfg verifiedAt now with
    | .error refusal => some { s with refusals := s.refusals ++ [refusal] }
    | .ok workflow =>
      (s.incidents.step services (.start (.workflow workflow))).map fun incidents =>
        { s with incidents }

/-- The routes and the services behind them as a transition system. -/
def lts (cfg : AuthConfig) (services : IncidentServices) : Lts ApiSystem ApiEvent :=
  ⟨step cfg services⟩

variable {cfg : AuthConfig} {services : IncidentServices} {s s' : ApiSystem} {e : ApiEvent}

/-- What an event does to the services. -/
inductive Moves (cfg : AuthConfig) (services : IncidentServices) (s s' : ApiSystem) :
    ApiEvent → Prop
  | auth {e : AuthEvent} (moves : s.auth.step cfg e = some s'.auth)
      (others : s'.incidents = s.incidents) : Moves cfg services s s' (.auth e)
  | incidents {e : IncidentEvent} (other : unrequested e = true)
      (moves : s.incidents.step services e = some s'.incidents) (others : s'.auth = s.auth) :
    Moves cfg services s s' (.incidents e)
  | refused {request : PostRequest} {verifiedAt now : Instant} {refusal : Refusal}
      (refuses : request.accept cfg verifiedAt now = .error refusal) (auth : s'.auth = s.auth)
      (incidents : s'.incidents = s.incidents) :
    Moves cfg services s s' (.post request verifiedAt now)
  | accepted {request : PostRequest} {verifiedAt now : Instant} {workflow : WorkflowRequest}
      (accepts : request.accept cfg verifiedAt now = .ok workflow)
      (moves : s.incidents.step services (.start (.workflow workflow)) = some s'.incidents)
      (others : s'.auth = s.auth) :
    Moves cfg services s s' (.post request verifiedAt now)

lemma moves_of_step (hstep : s.step cfg services e = some s') : Moves cfg services s s' e := by
  cases e with
  | auth e =>
    obtain ⟨auth, hauth, rfl⟩ := Option.map_eq_some_iff.1 hstep
    exact .auth hauth rfl
  | incidents e =>
    simp only [step] at hstep
    split_ifs at hstep with hother
    obtain ⟨incidents, hincidents, rfl⟩ := Option.map_eq_some_iff.1 hstep
    exact .incidents hother hincidents rfl
  | post request verifiedAt now =>
    simp only [step] at hstep
    split at hstep
    · rename_i refusal haccept
      cases hstep
      exact .refused haccept rfl rfl
    · rename_i workflow haccept
      obtain ⟨incidents, hincidents, rfl⟩ := Option.map_eq_some_iff.1 hstep
      exact .accepted haccept hincidents rfl

end ApiSystem

end InveniOps.Api
