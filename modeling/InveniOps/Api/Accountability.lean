import InveniOps.Api.WorkItemRequests

/-!
# Who moved a work item

Each row of the audit log of a work item is an escalation of the scheduler, or some request
asked for the move and the row names the email of its token; and a work item is in no state but
`OPEN` to which no such row leads.  If clients present no tokens but those that were
handed out, somebody has given the password of the account with that email.
-/

namespace InveniOps.Incidents

open Lib Stores WorkItems Api

/-- The event is an escalation of the scheduler, if it is an escalation. -/
def ByScheduler : IncidentEvent → Prop
  | .recordEscalation _ actor _ => actor = Alerting.ESCALATION_ACTOR
  | _ => True

namespace IncidentSystem

variable {services : IncidentServices} {s s' : IncidentSystem}

/-- An audit row that records an escalation of the scheduler. -/
structure Escalates (row : StateTransition) : Prop where
  fromState : row.fromState = .OPEN
  toState : row.toState = .OPEN
  actor : row.actor = Alerting.ESCALATION_ACTOR

/-- An audit row records a move that was requested. -/
structure Records (request : WorkflowRequest) (row : StateTransition) : Prop where
  workItemId : row.workItemId = request.workItemId
  toState : row.toState = requestedState request
  actor : row.actor = actorOf request

/-- Only calls of the workflow service and escalations write the audit log. -/
structure AuditedInv (s : IncidentSystem) : Prop where
  lifecycle : s.LifecycleInv
  rows : ∀ row ∈ s.stores.postgres.stateTransitions,
    Escalates row ∨ ∃ request, s.Requested request ∧ Records request row

/-- An escalation writes a row of its own or none. -/
lemma rows_of_escalation {w : WorkItemId} {actor : String} {io : StepIo}
    (hstep : s.step services (.recordEscalation w actor io) = some s')
    (hactor : actor = Alerting.ESCALATION_ACTOR) {row : StateTransition}
    (hrow : row ∈ s'.stores.postgres.stateTransitions) :
    row ∈ s.stores.postgres.stateTransitions ∨ Escalates row := by
  cases hstep
  rcases perform_snd (Postgres.recordEscalation services.workflow.prisma w actor io.now)
    io.outcome s.stores.postgres with hsame | ⟨u, hcommits⟩
  · left
    rwa [show (s.setPostgres _).stores.postgres = _ from hsame] at hrow
  · rw [show (s.setPostgres _).stores.postgres.toTables = _ from
      Postgres.recordEscalation_ok hcommits] at hrow
    rcases List.mem_append.1 hrow with hold | hnew
    · exact .inl hold
    · obtain rfl := List.mem_singleton.1 hnew
      exact .inr ⟨rfl, rfl, hactor⟩

/-- A guarded write records the request that it was decided for. -/
lemma records_of_command {prisma : PrismaClient} {request : WorkflowRequest} {found : WorkItem}
    {write : GuardedWrite} {clock : Instant} {pg pg' : Postgres} {updated : WorkItem}
    (hdecided : Decided found request write)
    (h : write.command prisma clock pg = .ok (updated, pg')) {row : StateTransition}
    (hrow : row ∈ pg'.stateTransitions) :
    row ∈ pg.stateTransitions ∨ Records request row := by
  have hmoves := moves_of_command hdecided h
  have haudit : pg'.stateTransitions = pg.stateTransitions ++ [write.transition.auditRow clock] :=
    hmoves.audit
  rw [haudit] at hrow
  rcases List.mem_append.1 hrow with hold | hnew
  · exact .inl hold
  · obtain rfl := List.mem_singleton.1 hnew
    refine .inr ⟨hmoves.workItemId, hmoves.toState, ?_⟩
    show write.transition.actor = actorOf request
    cases hdecided <;> rfl

lemma AuditedInv.step (h : s.AuditedInv) {e : IncidentEvent} (hscheduler : ByScheduler e)
    (hstep : s.step services e = some s') : s'.AuditedInv := by
  have hold : ∀ row, row ∈ s.stores.postgres.stateTransitions →
      Escalates row ∨ ∃ request, s'.Requested request ∧ Records request row := by
    intro row hrow
    rcases h.rows row hrow with hescalates | ⟨request, hrequested, hrecords⟩
    · exact .inl hescalates
    · exact .inr ⟨request, hrequested.of_step hstep, hrecords⟩
  refine ⟨h.lifecycle.step hstep, ?_⟩
  intro row hrow
  by_cases hescalation : ∃ w actor io, e = .recordEscalation w actor io
  · obtain ⟨w, actor, io, rfl⟩ := hescalation
    exact (rows_of_escalation hstep hscheduler hrow).elim (hold row) .inl
  · have hother : ∀ w actor io, e ≠ .recordEscalation w actor io :=
      fun w actor io he => hescalation ⟨w, actor, io, he⟩
    rcases stateTransitions_of_step hstep hother with hsame |
      ⟨call, request, found, updated, write, attempt, clock, hcall, htask, commits⟩
    · exact hold row (hsame ▸ hrow)
    · obtain ⟨hdecided, -⟩ := h.lifecycle.calls call hcall request found write attempt htask
      rcases records_of_command hdecided commits hrow with hbefore | hrecords
      · exact hold row hbefore
      · have hrequested : s.Requested request := ⟨call, hcall, _, htask⟩
        exact .inr ⟨request, hrequested.of_step hstep, hrecords⟩

/-- A work item that has left `OPEN` is in the state to which one of its rows leads. -/
lemma AuditedInv.exists_row (h : s.AuditedInv) {w : WorkItemId} {r : WorkItem}
    (hr : s.stores.postgres.row w = some r) (hopen : r.state ≠ .OPEN) :
    ∃ row ∈ s.stores.postgres.stateTransitions,
      row.workItemId = w ∧ row.toState = r.state ∧ ¬ Escalates row := by
  have hstate := (h.lifecycle.rows w r hr).lifecycle.state
  rw [Tables.row_id hr] at hstate
  cases hlast : (edgesOf (s.stores.postgres.audit w)).getLast? with
  | none =>
    rw [hlast] at hstate
    exact absurd hstate hopen
  | some edge =>
    rw [hlast] at hstate
    obtain ⟨row, hrow, rfl⟩ := List.mem_map.1 (List.mem_of_getLast? hlast)
    obtain ⟨haudit, hmoves⟩ := List.mem_filter.1 hrow
    obtain ⟨hmem, hid⟩ := List.mem_filter.1 haudit
    refine ⟨row, hmem, of_decide_eq_true hid, hstate.symm, ?_⟩
    intro hescalates
    exact of_decide_eq_true hmoves (hescalates.fromState.trans hescalates.toState.symm)

lemma auditedInv_empty : empty.AuditedInv := ⟨lifecycleInv_empty, by rintro row ⟨⟩⟩

/-- A call of the workflow service behind an event was there before, or is the event. -/
lemma requested_of_step {e : IncidentEvent} (hstep : s.step services e = some s')
    {request : WorkflowRequest} (h : s'.Requested request) :
    s.Requested request ∨ e = .start (.workflow request) := by
  obtain ⟨call', hmem, pc, htask⟩ := h
  cases e with
  | start started =>
    cases hstep
    rcases List.mem_append.1 hmem with hold | hnew
    · exact .inl ⟨call', hold, pc, htask⟩
    · obtain rfl := List.mem_singleton.1 hnew
      cases started with
      | workflow request' =>
        cases htask
        exact .inr rfl
      | _ => cases htask
  | step k i io =>
    obtain ⟨call, step, hcall, htaskStep, rfl⟩ := step_step_inv hstep
    rcases List.mem_or_eq_of_mem_set hmem with hold | rfl
    · exact .inl ⟨call', hold, pc, htask⟩
    · obtain ⟨task, effects⟩ := call
      cases task with
      | workflow request' pc' =>
        obtain ⟨next, -, rfl⟩ := Option.map_eq_some_iff.1 htaskStep
        cases htask
        exact .inl ⟨_, List.mem_of_getElem? hcall, pc', rfl⟩
      | _ =>
        obtain ⟨next, -, rfl⟩ := Option.map_eq_some_iff.1 htaskStep
        cases htask
  | _ =>
    cases hstep
    exact .inl ⟨call', hmem, pc, htask⟩

end IncidentSystem

end InveniOps.Incidents

namespace InveniOps.Api

open Lib Stores Auth WorkItems Incidents

variable {cfg : AuthConfig} {services : IncidentServices} {users₀ : UserTable}
  {buckets₀ : RateLimit.Buckets} {s s' : ApiSystem} {e : ApiEvent} {es : List ApiEvent}

namespace ApiSystem

/-! ### Requests -/

/-- A request with an accepted token has led to the call. -/
def Posted (cfg : AuthConfig) (es : List ApiEvent) (workflow : WorkflowRequest) : Prop :=
  ∃ request verifiedAt now, .post request verifiedAt now ∈ es ∧
    request.accept cfg verifiedAt now = .ok workflow

/-- A request with an accepted token asked for the move that the row records, and the row names
the user of the token. -/
def Authorised (cfg : AuthConfig) (es : List ApiEvent) (row : StateTransition) : Prop :=
  ∃ request verifiedAt now user, .post request verifiedAt now ∈ es ∧
    cfg.requireAuth request.authorization verifiedAt = .ok user ∧
    request.id = row.workItemId ∧ request.body.asksFor = some row.toState ∧
    user.email = row.actor

lemma byScheduler_of_unrequested {e : IncidentEvent} (h : unrequested e = true) :
    ByScheduler e := by
  cases e with
  | recordEscalation w actor io =>
    show actor = Alerting.ESCALATION_ACTOR
    exact of_decide_eq_true h
  | _ => trivial

/-- The incident services behind a step have made one at most. -/
lemma incidents_of_step (hstep : s.step cfg services e = some s') :
    s'.incidents = s.incidents ∨
      ∃ e', ByScheduler e' ∧ s.incidents.step services e' = some s'.incidents := by
  cases moves_of_step hstep with
  | auth moves others => exact .inl others
  | incidents other moves others => exact .inr ⟨_, byScheduler_of_unrequested other, moves⟩
  | refused refuses auth incidents => exact .inl incidents
  | accepted accepts moves others => exact .inr ⟨.start (.workflow _), trivial, moves⟩

lemma auditedInv_of_run (hrun : (lts cfg services).run (init users₀ buckets₀) es = some s) :
    s.incidents.AuditedInv := by
  refine Lts.run_invariant (I := fun s => s.incidents.AuditedInv) ?_ hrun
    IncidentSystem.auditedInv_empty
  intro s e s' h hstep
  rcases incidents_of_step hstep with hsame | ⟨e', hscheduler, hstep'⟩
  · rw [hsame]
    exact h
  · exact h.step hscheduler hstep'

/-- A call of the workflow service behind a step was there before, or a request is accepted. -/
lemma requested_of_step (hstep : s.step cfg services e = some s') {workflow : WorkflowRequest}
    (h : s'.incidents.Requested workflow) :
    s.incidents.Requested workflow ∨ ∃ request verifiedAt now,
      e = .post request verifiedAt now ∧ request.accept cfg verifiedAt now = .ok workflow := by
  cases moves_of_step hstep with
  | auth moves others => exact .inl (others ▸ h)
  | incidents other moves others =>
    rcases IncidentSystem.requested_of_step moves h with hold | rfl
    · exact .inl hold
    · cases other
  | refused refuses auth incidents => exact .inl (incidents ▸ h)
  | accepted accepts moves others =>
    rcases IncidentSystem.requested_of_step moves h with hold | hstarted
    · exact .inl hold
    · cases hstarted
      exact .inr ⟨_, _, _, rfl, accepts⟩

lemma posted_of_run (hrun : (lts cfg services).run (init users₀ buckets₀) es = some s)
    {workflow : WorkflowRequest} (h : s.incidents.Requested workflow) :
    Posted cfg es workflow := by
  refine Lts.run_invariant_history
    (I := fun es s => ∀ workflow, s.incidents.Requested workflow → Posted cfg es workflow)
    ?_ ?_ hrun workflow h
  · rintro workflow ⟨call, ⟨⟩, -⟩
  · intro es s e s' _ h hstep workflow hrequested
    rcases requested_of_step hstep hrequested with hold | ⟨request, verifiedAt, now, rfl, haccept⟩
    · obtain ⟨request, verifiedAt, now, hmem, haccept⟩ := h workflow hold
      exact ⟨request, verifiedAt, now, List.mem_append_left _ hmem, haccept⟩
    · exact ⟨request, verifiedAt, now, List.mem_append_right _ (List.mem_singleton_self _), haccept⟩

/-- A row that records a move that was requested is authorised. -/
lemma authorised_of_records (hrun : (lts cfg services).run (init users₀ buckets₀) es = some s)
    {row : StateTransition} {workflow : WorkflowRequest}
    (hrequested : s.incidents.Requested workflow)
    (hrecords : IncidentSystem.Records workflow row) : Authorised cfg es row := by
  obtain ⟨request, verifiedAt, now, hmem, haccept⟩ := posted_of_run hrun hrequested
  obtain ⟨user, huser, hactor, hid, hasks⟩ := accept_ok haccept
  refine ⟨request, verifiedAt, now, user, hmem, huser, ?_, ?_, ?_⟩
  · rw [hrecords.workItemId, hid]
  · rw [hrecords.toState, hasks]
  · rw [hrecords.actor, hactor]

/-- **No move without a user.**  In every run of the routes and the services, each row of the
audit log is an escalation of the scheduler, or a request for this move of this work item came
with a token that `requireAuth` accepted, and the row names the email of that token; and a work
item is `OPEN`, or in the state to which such a row of it leads. -/
theorem transitions_authorised
    (hrun : (lts cfg services).run (init users₀ buckets₀) es = some s) :
    (∀ row ∈ s.incidents.stores.postgres.stateTransitions,
        row.fromState = .OPEN ∧ row.toState = .OPEN ∧ row.actor = Alerting.ESCALATION_ACTOR ∨
          Authorised cfg es row) ∧
      ∀ w r, s.incidents.stores.postgres.row w = some r → r.state = .OPEN ∨
        ∃ row ∈ s.incidents.stores.postgres.stateTransitions,
          row.workItemId = w ∧ row.toState = r.state ∧ Authorised cfg es row := by
  have hinv := auditedInv_of_run hrun
  constructor
  · intro row hrow
    rcases hinv.rows row hrow with hescalates | ⟨workflow, hrequested, hrecords⟩
    · exact .inl ⟨hescalates.fromState, hescalates.toState, hescalates.actor⟩
    · exact .inr (authorised_of_records hrun hrequested hrecords)
  · intro w r hr
    by_cases hopen : r.state = .OPEN
    · exact .inl hopen
    · obtain ⟨row, hrow, hid, hto, hmoves⟩ := hinv.exists_row hr hopen
      obtain ⟨workflow, hrequested, hrecords⟩ := (hinv.rows row hrow).resolve_left hmoves
      exact .inr ⟨row, hrow, hid, hto, authorised_of_records hrun hrequested hrecords⟩

/-! ### A request on fixed inputs -/

/-- A signup that is answered in its second turn. -/
def signupEvents : List AuthEvent :=
  [.call (.signup "operator@example.com" "correct horse" "Test Operator"), turnAt 0 1000 .ok,
    turnAt 0 1200 .ok]

/-- The token of the signup. -/
def operatorToken : String :=
  sampleConfig.signAccessToken ⟨"u1", "operator@example.com", "Test Operator", .RESPONDER⟩ 1200

/-- The operator asks to take charge of `w`. -/
def operatorRequest : PostRequest :=
  ⟨some (BEARER_PREFIX ++ operatorToken), "w", .transition (.ok .INVESTIGATING)⟩

/-- What the request makes of itself. -/
def operatorMove : WorkflowRequest :=
  .transitionWorkItem "w" .INVESTIGATING "operator@example.com" 2000

/-- The item `w` appears. -/
def appearingEvents : List IncidentEvent := [itemCreated]

/-- The turns of the first call. -/
def movingEvents : List IncidentEvent := List.replicate 5 (.step 0 0 ⟨.ok, 2000⟩)

/-- Somebody signs up and takes charge of `w`. -/
def movedByOperator : List ApiEvent :=
  signupEvents.map .auth ++ (appearingEvents.map .incidents ++
    .post operatorRequest 2000 2000 :: movingEvents.map .incidents)

/-- The bearer of a signed token may move work items until it expires. -/
lemma accept_signed {user : AccessTokenPayload} {signedAt verifiedAt now : Instant}
    (hfresh : seconds verifiedAt < seconds signedAt + cfg.accessTokenTtlSeconds)
    {id : WorkItemId} (hid : id ≠ "") (toState : WorkItemStatus) :
    PostRequest.accept cfg ⟨some (BEARER_PREFIX ++ cfg.signAccessToken user signedAt), id,
        .transition (.ok toState)⟩ verifiedAt now
      = .ok (.transitionWorkItem id toState user.email now) := by
  simp only [PostRequest.accept, AuthConfig.requireAuth, Option.bind_some, bearerToken_append,
    verifyAccessToken_sign hfresh, if_neg hid]

lemma operatorRequest_accept : operatorRequest.accept sampleConfig 2000 2000 = .ok operatorMove :=
  accept_signed (by decide) (by decide) _

/-- What comes of the signup, whatever the libraries are. -/
lemma issued_of_signupEvents (cfg : AuthConfig) :
    ∃ a, (AuthSystem.lts cfg).run (.init noUsers fun _ => none) signupEvents = some a ∧
      a.issued =
        [cfg.signAccessToken ⟨"u1", "operator@example.com", "Test Operator", .RESPONDER⟩ 1200] :=
  ⟨_, rfl, rfl⟩

lemma run_auth {a : AuthSystem} {es : List AuthEvent}
    (hrun : (AuthSystem.lts cfg).run s.auth es = some a) :
    (lts cfg services).run s (es.map .auth) = some { s with auth := a } := by
  refine Lts.run_embed (A := AuthSystem.lts cfg) (fun a => { s with auth := a }) ?_ hrun
  rintro a a' e - hstep
  show (a.step cfg e).map _ = _
  rw [show a.step cfg e = some a' from hstep]
  rfl

lemma run_incidents {i : IncidentSystem} {es : List IncidentEvent}
    (hes : ∀ e ∈ es, unrequested e = true)
    (hrun : (IncidentSystem.lts services).run s.incidents es = some i) :
    (lts cfg services).run s (es.map .incidents) = some { s with incidents := i } := by
  refine Lts.run_embed (A := IncidentSystem.lts services) (fun i => { s with incidents := i }) ?_
    hrun
  intro i i' e he hstep
  show (if unrequested e then (i.step services e).map _ else none) = _
  rw [hes e he, show i.step services e = some i' from hstep]
  rfl

lemma step_accepted {request : PostRequest} {verifiedAt now : Instant}
    {workflow : WorkflowRequest} {i : IncidentSystem}
    (haccept : request.accept cfg verifiedAt now = .ok workflow)
    (hstart : s.incidents.step services (.start (.workflow workflow)) = some i) :
    (lts cfg services).step s (.post request verifiedAt now) = some { s with incidents := i } := by
  show step cfg services s (.post request verifiedAt now) = _
  simp only [step, haccept, hstart, Option.map_some]

/-- The states before the request and behind it. -/
lemma run_movedByOperator : ∃ s t, (lts sampleConfig .standard).run (init noUsers fun _ => none)
      (signupEvents.map .auth ++ appearingEvents.map .incidents) = some s ∧
    s.auth.issued = [operatorToken] ∧
    (lts sampleConfig .standard).run (init noUsers fun _ => none) movedByOperator = some t ∧
    ⟨"w", .OPEN, .INVESTIGATING, "operator@example.com", 2000⟩ ∈
      t.incidents.stores.postgres.stateTransitions := by
  obtain ⟨a, ha, hissued⟩ := issued_of_signupEvents sampleConfig
  have hobserved : ((IncidentSystem.lts .standard).run .empty
      (appearingEvents ++ .start (.workflow operatorMove) :: movingEvents)).map
        (·.stores.postgres.stateTransitions)
      = some [⟨"w", .OPEN, .INVESTIGATING, "operator@example.com", 2000⟩] := by
    decide +kernel
  obtain ⟨i₂, hrun, hrows⟩ := Option.map_eq_some_iff.1 hobserved
  obtain ⟨i, hi, hrun⟩ := Lts.run_append_inv hrun
  obtain ⟨i₁, hi₁, hi₂⟩ := Lts.run_cons_inv hrun
  have happears : ∀ e ∈ appearingEvents, unrequested e = true := by decide
  have hmoves : ∀ e ∈ movingEvents, unrequested e = true := by
    intro e he
    rw [List.eq_of_mem_replicate he]
    rfl
  have hbefore : (lts sampleConfig .standard).run (init noUsers fun _ => none)
      (signupEvents.map .auth ++ appearingEvents.map .incidents) = some ⟨a, i, []⟩ := by
    rw [Lts.run_append, run_auth (s := init noUsers fun _ => none) ha, Option.bind_some]
    exact run_incidents happears hi
  refine ⟨⟨a, i, []⟩, ⟨a, i₂, []⟩, hbefore, hissued, ?_, ?_⟩
  · rw [movedByOperator, ← List.append_assoc, Lts.run_append, hbefore, Option.bind_some,
      Lts.run_cons, step_accepted (s := ⟨a, i, []⟩) operatorRequest_accept hi₁]
    exact run_incidents hmoves hi₂
  · show _ ∈ i₂.stores.postgres.stateTransitions
    rw [hrows]
    exact List.mem_singleton_self _

/-- The item is moved by the row of that request. -/
theorem transitions_authorised_of_movedByOperator :
    ∃ t, (lts sampleConfig .standard).run (init noUsers fun _ => none) movedByOperator = some t ∧
      (∃ row ∈ t.incidents.stores.postgres.stateTransitions, row.toState = .INVESTIGATING) ∧
      (∀ row ∈ t.incidents.stores.postgres.stateTransitions,
          row.fromState = .OPEN ∧ row.toState = .OPEN ∧ row.actor = Alerting.ESCALATION_ACTOR ∨
            Authorised sampleConfig movedByOperator row) ∧
        ∀ w r, t.incidents.stores.postgres.row w = some r → r.state = .OPEN ∨
          ∃ row ∈ t.incidents.stores.postgres.stateTransitions,
            row.workItemId = w ∧ row.toState = r.state ∧
              Authorised sampleConfig movedByOperator row := by
  obtain ⟨s, t, -, -, hrun, hrow⟩ := run_movedByOperator
  exact ⟨t, hrun, ⟨_, hrow, rfl⟩, transitions_authorised hrun⟩

/-! ### Accounts -/

/-- An accepted token that comes with a request has been handed out by a signup or a login. -/
def HandedOut (cfg : AuthConfig) (s : ApiSystem) : ApiEvent → Prop
  | .post request verifiedAt _ =>
    ∀ token user, request.authorization.bind bearerToken = some token →
      cfg.verifyAccessToken token verifiedAt = .ok user → token ∈ s.auth.issued
  | _ => True

/-- Each call of the workflow service has somebody who logged in behind it. -/
structure CallersInv (cfg : AuthConfig) (users₀ : UserTable) (s : ApiSystem) : Prop where
  accounted : ∃ ledger, Accounted cfg users₀ s.auth ledger
  callers : ∀ workflow, s.incidents.Requested workflow →
    ∃ u ∈ s.auth.users.rows, u.email = actorOf workflow ∧ LoggedIn cfg s.auth u

lemma callersInv_init : CallersInv cfg users₀ (init users₀ buckets₀) :=
  ⟨⟨[], accounted_init⟩, by rintro workflow ⟨call, ⟨⟩, -⟩⟩

/-- An accepted request comes from somebody who logged in. -/
lemma CallersInv.caller_of_accept (h : CallersInv cfg users₀ s) {request : PostRequest}
    {verifiedAt now : Instant} (hhanded : HandedOut cfg s (.post request verifiedAt now))
    {workflow : WorkflowRequest} (haccept : request.accept cfg verifiedAt now = .ok workflow) :
    ∃ u ∈ s.auth.users.rows, u.email = actorOf workflow ∧ LoggedIn cfg s.auth u := by
  obtain ⟨ledger, haccounted⟩ := h.accounted
  obtain ⟨user, huser, hactor, -⟩ := accept_ok haccept
  obtain ⟨token, htoken, haccepted⟩ := requireAuth_ok huser
  obtain ⟨u, hu, hloggedIn, hsigned⟩ := haccounted.signed (hhanded token user htoken haccepted)
  exact ⟨u, hu, by rw [hactor, email_of_signed hsigned haccepted], hloggedIn⟩

lemma CallersInv.step (h : CallersInv cfg users₀ s) (hhanded : HandedOut cfg s e)
    (hstep : s.step cfg services e = some s') : CallersInv cfg users₀ s' := by
  obtain ⟨ledger, haccounted⟩ := h.accounted
  have hcallers : ∀ workflow, s'.incidents.Requested workflow →
      ∃ u ∈ s.auth.users.rows, u.email = actorOf workflow ∧ LoggedIn cfg s.auth u := by
    intro workflow hrequested
    rcases requested_of_step hstep hrequested with hold | ⟨request, verifiedAt, now, rfl, haccept⟩
    · exact h.callers workflow hold
    · exact h.caller_of_accept hhanded haccept
  cases moves_of_step hstep with
  | auth moves others =>
    refine ⟨⟨_, haccounted.step moves⟩, ?_⟩
    intro workflow hrequested
    obtain ⟨u, hu, hemail, hloggedIn⟩ := hcallers workflow hrequested
    refine ⟨u, ?_, hemail, hloggedIn.of_step moves⟩
    rw [rows_of_step moves]
    exact List.mem_append_left _ hu
  | incidents other moves others => exact ⟨others ▸ h.accounted, others ▸ hcallers⟩
  | refused refuses auth incidents => exact ⟨auth ▸ h.accounted, auth ▸ hcallers⟩
  | accepted accepts moves others => exact ⟨others ▸ h.accounted, others ▸ hcallers⟩

/-- **Accountability.**  If clients present no tokens but those that were handed out, then in
every run each row of the audit log that is no escalation names the email of an account, and
somebody has signed up for this account or logged in to it with its password. -/
theorem transitions_accountable
    (hrun : (lts cfg services).run (init users₀ buckets₀) es = some s)
    (hhanded : (lts cfg services).Meets (HandedOut cfg) (init users₀ buckets₀) es)
    {row : StateTransition} (hrow : row ∈ s.incidents.stores.postgres.stateTransitions) :
    row.fromState = .OPEN ∧ row.toState = .OPEN ∨
      ∃ u ∈ s.auth.users.rows, u.email = row.actor ∧ LoggedIn cfg s.auth u := by
  have hcallers : CallersInv cfg users₀ s :=
    Lts.run_invariant_of_meets (fun _ _ _ h hhanded hstep => h.step hhanded hstep) hrun hhanded
      callersInv_init
  rcases (auditedInv_of_run hrun).rows row hrow with hescalates | ⟨workflow, hrequested, hrecords⟩
  · exact .inl ⟨hescalates.fromState, hescalates.toState⟩
  · obtain ⟨u, hu, hemail, hloggedIn⟩ := hcallers.callers workflow hrequested
    exact .inr ⟨u, hu, hemail.trans hrecords.actor.symm, hloggedIn⟩

/-- The operator is accountable for the move. -/
theorem transitions_accountable_of_movedByOperator :
    ∃ t, (lts sampleConfig .standard).run (init noUsers fun _ => none) movedByOperator = some t ∧
      (lts sampleConfig .standard).Meets (HandedOut sampleConfig) (init noUsers fun _ => none)
        movedByOperator ∧
      ∃ row ∈ t.incidents.stores.postgres.stateTransitions, row.toState = .INVESTIGATING ∧
        (row.fromState = .OPEN ∧ row.toState = .OPEN ∨
          ∃ u ∈ t.auth.users.rows, u.email = row.actor ∧ LoggedIn sampleConfig t.auth u) := by
  obtain ⟨s, t, hs, hissued, hrun, hrow⟩ := run_movedByOperator
  have hother : ∀ (s : ApiSystem) (xs : List AuthEvent) (ys : List IncidentEvent),
      (lts sampleConfig .standard).Meets (HandedOut sampleConfig) s
        (xs.map .auth ++ ys.map .incidents) := by
    intro s xs ys
    refine ((Lts.meets_of_forall (fun _ _ => trivial) s _).and_of_forall
      (Q := fun e => ∀ s, HandedOut sampleConfig s e) ?_).imp fun s e h => h.1 s
    intro e he
    rcases List.mem_append.1 he with he | he
    · obtain ⟨a, -, rfl⟩ := List.mem_map.1 he
      exact fun _ => trivial
    · obtain ⟨i, -, rfl⟩ := List.mem_map.1 he
      exact fun _ => trivial
  have hhanded : (lts sampleConfig .standard).Meets (HandedOut sampleConfig)
      (init noUsers fun _ => none) movedByOperator := by
    rw [movedByOperator, ← List.append_assoc]
    refine (hother _ _ _).append hs ⟨?_, fun s' _ => hother s' [] movingEvents⟩
    -- the only request comes with the token of the signup
    intro token user htoken _
    rw [operatorRequest, Option.bind_some, bearerToken_append] at htoken
    rw [hissued, ← Option.some.inj htoken]
    exact List.mem_singleton_self _
  exact ⟨t, hrun, hhanded, _, hrow, rfl, transitions_accountable hrun hhanded hrow⟩

end ApiSystem

end InveniOps.Api
