import InveniOps.Auth.Accounts
import InveniOps.Lib.Lts

/-!
# Signups and logins

`AuthService` (`services/auth/authService.ts`) behind its routes (`api/routes/auth.ts`),
for requests whose bodies have passed their schema.  Calls interleave: one step is one
command to a store, or one turn behind the password library, and a call may never be
continued.
-/

namespace InveniOps.Auth

open Lib Stores RateLimit

/-- What responses tell of an account. -/
structure PublicUser where
  id : String
  email : String
  name : String
  role : UserRole
  createdAt : Instant
deriving DecidableEq

/-- An account without its password. -/
def toPublicUser (user : User) : PublicUser where
  id := user.id
  email := user.email
  name := user.name
  role := user.role
  createdAt := user.createdAt

/-- The claims that a token for the user carries. -/
def PublicUser.payload (user : PublicUser) : AccessTokenPayload :=
  ⟨user.id, user.email, user.name, user.role⟩

/-- A request with a valid body; `email` is trimmed and in lower case. -/
inductive AuthRequest
  | signup (email password name : String)
  | login (ip email password : String)
deriving DecidableEq

/-- The answers of `handleSignup` and `handleLogin`; `failed` is left to the error handler. -/
inductive AuthAnswer
  | created (user : PublicUser) (token : String)
  | duplicateEmail
  | success (user : PublicUser) (token : String)
  | invalidCredentials
  | rateLimited (retryAfter : ℤ)
  | failed (e : Thrown)
deriving DecidableEq

/-- Where a call is. -/
inductive AuthPc
  /-- In `hashPassword` of a signup. -/
  | hashing
  /-- At `prisma.user.create`, in an attempt of its retry wrapper. -/
  | creating (input : CreateUserInput) (attempt : ℕ)
  /-- At the script of the rate limiter. -/
  | limiting
  /-- At `findByEmail`. -/
  | finding
  /-- In `verifyPassword`. -/
  | comparing (user : Option User)
  | answered (answer : AuthAnswer)
deriving DecidableEq

/-- The call has been answered. -/
def AuthPc.isAnswered : AuthPc → Bool
  | .answered _ => true
  | _ => false

/-- A call with its arguments. -/
structure AuthCall where
  request : AuthRequest
  pc : AuthPc
deriving DecidableEq

/-- What the environment decides about a step. -/
structure AuthIo where
  outcome : Outcome
  /-- The id that the database client generates for an inserted row. -/
  uuid : String
  salt : String
  now : Instant

/-- The accounts, the buckets of the rate limiter and the calls. -/
structure AuthSystem where
  users : UserTable
  buckets : Buckets
  calls : List AuthCall

/-- The events of the service. -/
inductive AuthEvent
  | call (request : AuthRequest)
  /-- A turn of a call. -/
  | turn (i : ℕ) (io : AuthIo)

/-- Where a request starts. -/
def AuthRequest.start : AuthRequest → AuthPc
  | .signup .. => .hashing
  | .login .. => .limiting

/-- The test of the `catch` in `signup`. -/
def isEmailTaken : Thrown → Bool
  | .store (.prisma e) => isUniqueConstraintViolation e "email"
  | _ => false

/-- A fault that reports a violated index, which only the table itself does. -/
def AuthIo.violates (io : AuthIo) : Bool :=
  match io.outcome with
  | .ok => false
  | .fault _ e => isEmailTaken (.store e)

/-- The keys and limits that `checkLoginRateLimitFailOpen` passes. -/
def loginParams (cfg : AuthConfig) (ip email : String) (now : Instant) :
    TokenBucketCheckParams where
  ipKey := "ratelimit:login:ip:" ++ ip
  globalKey := "ratelimit:login:email:" ++ email
  ip := cfg.ipLimit
  global := cfg.emailLimit
  cost := 1
  now := now
  ttlSeconds := cfg.ttlSeconds

/-- The header `Retry-After` of a login that is denied. -/
def loginRetryAfter (cfg : AuthConfig) (result : TokenBucketResult) : ℤ :=
  if result.limitedBy = some .ip then
    secondsUntilAvailable result.ip cfg.ipLimit.refillPerSecond 1
  else secondsUntilAvailable result.global cfg.emailLimit.refillPerSecond 1

variable (cfg : AuthConfig)

/-- A turn of `signup`. -/
def signupTurn (users : UserTable) (email password name : String) (io : AuthIo) :
    AuthPc → Option (UserTable × AuthPc)
  | .hashing =>
    some (users, .creating ⟨email, cfg.hashPassword io.salt password, name⟩ 1)
  | .creating input attempt =>
    let reply := perform (UserTable.create input io.uuid io.now) io.outcome users
    some (reply.2,
      match withPostgresRetry attempt reply.1 with
      | .returned user =>
        .answered (.created (toPublicUser user)
          (cfg.signAccessToken (toPublicUser user).payload io.now))
      | .again next => .creating input next
      | .thrown e => .answered (if isEmailTaken e then .duplicateEmail else .failed e))
  | _ => none

/-- A turn of `handleLogin`. -/
def loginTurn (users : UserTable) (buckets : Buckets) (ip email password : String)
    (io : AuthIo) : AuthPc → Option (Buckets × AuthPc)
  | .limiting =>
    let checked := checkTokenBuckets .doubles buckets (loginParams cfg ip email io.now)
    match io.outcome with
    | .ok => some (checked.2,
        if checked.1.allowed then .finding
        else .answered (.rateLimited (loginRetryAfter cfg checked.1)))
    -- without Redis everybody may log in
    | .fault applied _ => some (if applied then checked.2 else buckets, .finding)
  | .finding =>
    match (perform (UserTable.findByEmail email) io.outcome users).1 with
    | .ok user => some (buckets, .comparing user)
    | .error e => some (buckets, .answered (.failed e))
  | .comparing user =>
    let hash := (user.map (·.passwordHash)).getD cfg.DUMMY_PASSWORD_HASH
    let passwordMatches := cfg.verifyPassword password hash
    some (buckets,
      match user with
      | some user =>
        if passwordMatches then
          .answered (.success (toPublicUser user)
            (cfg.signAccessToken (toPublicUser user).payload io.now))
        else .answered .invalidCredentials
      | none => .answered .invalidCredentials)
  | _ => none

namespace AuthSystem

/-- No call has been made yet. -/
def init (users : UserTable) (buckets : Buckets) : AuthSystem := ⟨users, buckets, []⟩

/-- A turn of one call. -/
def turn (s : AuthSystem) (i : ℕ) (io : AuthIo) : Option AuthSystem :=
  if io.violates then none
  else
    match s.calls[i]? with
    | none => none
    | some ⟨.signup email password name, pc⟩ =>
      (signupTurn cfg s.users email password name io pc).map fun next =>
        { s with
          users := next.1
          calls := s.calls.set i ⟨.signup email password name, next.2⟩ }
    | some ⟨.login ip email password, pc⟩ =>
      (loginTurn cfg s.users s.buckets ip email password io pc).map fun next =>
        { s with
          buckets := next.1
          calls := s.calls.set i ⟨.login ip email password, next.2⟩ }

/-- The system behind an event, if the event can happen. -/
def step (s : AuthSystem) : AuthEvent → Option AuthSystem
  | .call request => some { s with calls := s.calls ++ [⟨request, request.start⟩] }
  | .turn i io => s.turn cfg i io

/-- The calls of all clients as a transition system. -/
def lts : Lts AuthSystem AuthEvent := ⟨step cfg⟩

/-- The request of a call and the answer to it. -/
def Answered (s : AuthSystem) (i : ℕ) (request : AuthRequest) (answer : AuthAnswer) : Prop :=
  s.calls[i]? = some ⟨request, .answered answer⟩

/-- The tokens that clients have been given. -/
def issued (s : AuthSystem) : List String :=
  s.calls.filterMap fun call =>
    match call.pc with
    | .answered (.created _ token) | .answered (.success _ token) => some token
    | _ => none

/-- The row that a turn inserts, with the call that inserts it. -/
def inserted (s : AuthSystem) : AuthEvent → List (ℕ × User)
  | .call _ => []
  | .turn i io =>
    match s.calls[i]? with
    | some ⟨.signup .., .creating input _⟩ =>
      match UserTable.create input io.uuid io.now s.users with
      | .ok (user, _) => if io.outcome.isApplied then [(i, user)] else []
      | .error _ => []
    | _ => []

end AuthSystem

/-- The answers to `GET /me`. -/
inductive MeAnswer
  | ok (user : PublicUser)
  | unauthorized (body : Unauthorized)
  | notFound
  | failed (e : Thrown)
deriving DecidableEq

/-- `handleMe` behind `requireAuth`. -/
def handleMe (users : UserTable) (header : Option String) (now : Instant) (outcome : Outcome) :
    MeAnswer :=
  match cfg.requireAuth header now with
  | .error body => .unauthorized body
  | .ok user =>
    match (perform (UserTable.findById user.sub) outcome users).1 with
    | .ok (some user) => .ok (toPublicUser user)
    | .ok none => .notFound
    | .error e => .failed e

/-! ### What a turn can do -/

section Turns

variable {cfg} {users users' : UserTable} {buckets buckets' : Buckets} {io : AuthIo}
  {pc pc' : AuthPc} {ip email password name : String}

/-- The table alone reports that an email is taken. -/
lemma emailTaken_of_perform {input : CreateUserInput} {e : Thrown} (hio : io.violates = false)
    (h : (perform (UserTable.create input io.uuid io.now) io.outcome users).1 = .error e)
    (he : isEmailTaken e = true) :
    (perform (UserTable.create input io.uuid io.now) io.outcome users).2 = users ∧
      input.email ∈ users.rows.map (·.email) := by
  unfold AuthIo.violates at hio
  cases houtcome : io.outcome with
  | fault applied error =>
    rw [houtcome] at h hio
    rw [perform_fault_fst] at h
    cases h
    cases he.symm.trans hio
  | ok =>
    rw [houtcome] at h
    cases hc : UserTable.create input io.uuid io.now users with
    | ok p => simp [perform, hc] at h
    | error e' =>
      rw [perform_error_of hc] at h ⊢
      refine ⟨rfl, ?_⟩
      rcases UserTable.create_error hc with rfl | ⟨_, hemail⟩
      · cases h
        cases he
      · exact hemail

/-- A turn of a signup: it hashes the password, or comes back from the table. -/
lemma signupTurn_cases (hio : io.violates = false)
    (h : signupTurn cfg users email password name io pc = some (users', pc')) :
    (pc = .hashing ∧ users' = users ∧
      pc' = .creating ⟨email, cfg.hashPassword io.salt password, name⟩ 1) ∨
    ∃ input attempt, pc = .creating input attempt ∧
      users' = (perform (UserTable.create input io.uuid io.now) io.outcome users).2 ∧
      ((∃ user, UserTable.create input io.uuid io.now users = .ok (user, users') ∧
          io.outcome = .ok ∧ pc' = .answered (.created (toPublicUser user)
            (cfg.signAccessToken (toPublicUser user).payload io.now))) ∨
        (∃ next, pc' = .creating input next) ∨
        (pc' = .answered .duplicateEmail ∧ users' = users ∧
          input.email ∈ users.rows.map (·.email)) ∨
        ∃ e, pc' = .answered (.failed e)) := by
  cases pc with
  | hashing =>
    cases h
    exact .inl ⟨rfl, rfl, rfl⟩
  | creating input attempt =>
    simp only [signupTurn, Option.some.injEq, Prod.mk.injEq] at h
    obtain ⟨rfl, hpc⟩ := h
    refine .inr ⟨input, attempt, rfl, rfl, ?_⟩
    split at hpc
    · rename_i user hretry
      obtain ⟨hok, hcreate⟩ := perform_ok (withPostgresRetry_returned hretry)
      exact .inl ⟨user, hcreate, hok, hpc.symm⟩
    · rename_i next _
      exact .inr (.inl ⟨next, hpc.symm⟩)
    · rename_i e hretry
      split_ifs at hpc with he
      · exact .inr (.inr (.inl ⟨hpc.symm,
          emailTaken_of_perform hio (withPostgresRetry_thrown hretry) he⟩))
      · exact .inr (.inr (.inr ⟨e, hpc.symm⟩))
  | _ => cases h

/-- A turn of a login. -/
lemma loginTurn_cases
    (h : loginTurn cfg users buckets ip email password io pc = some (buckets', pc')) :
    (pc = .limiting ∧ (pc' = .finding ∨ ∃ n, pc' = .answered (.rateLimited n))) ∨
    (pc = .finding ∧ (pc' = .comparing (users.rows.find? (·.email = email)) ∨
      ∃ e, pc' = .answered (.failed e))) ∨
    (∃ user, pc = .comparing (some user) ∧
      pc' = .answered (if cfg.verifyPassword password user.passwordHash then
        .success (toPublicUser user) (cfg.signAccessToken (toPublicUser user).payload io.now)
      else .invalidCredentials)) ∨
    pc = .comparing none ∧ pc' = .answered .invalidCredentials := by
  cases pc with
  | limiting =>
    refine .inl ⟨rfl, ?_⟩
    simp only [loginTurn] at h
    split at h
    · simp only [Option.some.injEq, Prod.mk.injEq] at h
      split_ifs at h
      · exact .inl h.2.symm
      · exact .inr ⟨_, h.2.symm⟩
    · simp only [Option.some.injEq, Prod.mk.injEq] at h
      exact .inl h.2.symm
  | finding =>
    refine .inr (.inl ⟨rfl, ?_⟩)
    simp only [loginTurn] at h
    split at h
    · rename_i user hfind
      obtain ⟨_, hfind⟩ := perform_ok hfind
      simp only [UserTable.findByEmail, Except.ok.injEq, Prod.mk.injEq] at hfind
      simp only [Option.some.injEq, Prod.mk.injEq] at h
      rw [hfind.1]
      exact .inl h.2.symm
    · rename_i e _
      simp only [Option.some.injEq, Prod.mk.injEq] at h
      exact .inr ⟨e, h.2.symm⟩
  | comparing user =>
    simp only [loginTurn, Option.some.injEq, Prod.mk.injEq] at h
    cases user with
    | none => exact .inr (.inr (.inr ⟨rfl, h.2.symm⟩))
    | some user =>
      refine .inr (.inr (.inl ⟨user, rfl, ?_⟩))
      simp only [Option.map_some, Option.getD_some] at h
      rw [← h.2]
      split_ifs <;> rfl
  | _ => cases h

end Turns

namespace AuthSystem

variable {cfg} {s s' : AuthSystem} {e : AuthEvent} {i : ℕ} {io : AuthIo}

/-- A turn moves one call on; logins leave the table as it is. -/
lemma turn_cases (h : s.turn cfg i io = some s') :
    io.violates = false ∧ ∃ request pc pc', s.calls[i]? = some ⟨request, pc⟩ ∧
      s'.calls = s.calls.set i ⟨request, pc'⟩ ∧
      ((∃ email password name, request = .signup email password name ∧
          signupTurn cfg s.users email password name io pc = some (s'.users, pc')) ∨
        ∃ ip email password, request = .login ip email password ∧ s'.users = s.users ∧
          loginTurn cfg s.users s.buckets ip email password io pc = some (s'.buckets, pc')) := by
  unfold turn at h
  split_ifs at h with hio
  refine ⟨Bool.eq_false_iff.2 hio, ?_⟩
  split at h
  · cases h
  · rename_i email password name pc hcall
    obtain ⟨⟨users', pc'⟩, hturn, rfl⟩ := Option.map_eq_some_iff.1 h
    exact ⟨_, pc, pc', hcall, rfl, .inl ⟨email, password, name, rfl, hturn⟩⟩
  · rename_i ip email password pc hcall
    obtain ⟨⟨buckets', pc'⟩, hturn, rfl⟩ := Option.map_eq_some_iff.1 h
    exact ⟨_, pc, pc', hcall, rfl, .inr ⟨ip, email, password, rfl, rfl, hturn⟩⟩

/-- A step leaves the table as it is, or appends the row of a signup. -/
lemma inserted_cases (hstep : s.step cfg e = some s') :
    (s.inserted e = [] ∧ s'.users.rows = s.users.rows) ∨
    ∃ i io email password name input attempt, e = .turn i io ∧
      s.calls[i]? = some ⟨.signup email password name, .creating input attempt⟩ ∧
      s.inserted e = [(i, input.toRow io.uuid io.now)] ∧
      s'.users.rows = s.users.rows ++ [input.toRow io.uuid io.now] := by
  cases e with
  | call request =>
    cases hstep
    exact .inl ⟨rfl, rfl⟩
  | turn i io =>
    obtain ⟨hio, request, pc, pc', hcall, -, hturn⟩ := turn_cases hstep
    rcases hturn with ⟨email, password, name, rfl, hturn⟩ | ⟨ip, email, password, rfl, husers, -⟩
    · rcases signupTurn_cases hio hturn with ⟨rfl, husers, -⟩ |
        ⟨input, attempt, rfl, husers, -⟩
      · exact .inl ⟨by simp [inserted, hcall], by rw [husers]⟩
      · cases hcreate : UserTable.create input io.uuid io.now s.users with
        | error e =>
          refine .inl ⟨by simp [inserted, hcall, hcreate], ?_⟩
          rcases perform_snd (UserTable.create input io.uuid io.now) io.outcome s.users with
            hsame | ⟨_, hok⟩
          · rw [husers, hsame]
          · rw [hcreate] at hok
            cases hok
        | ok reply =>
          obtain ⟨user, users'⟩ := reply
          obtain ⟨huser, hrows, -⟩ := UserTable.create_ok hcreate
          rw [perform_snd_of_ok hcreate] at husers
          rw [husers]
          subst huser
          cases happlied : io.outcome.isApplied with
          | false => exact .inl ⟨by simp [inserted, hcall, hcreate, happlied], rfl⟩
          | true =>
            exact .inr ⟨i, io, email, password, name, input, attempt, rfl, hcall,
              by simp [inserted, hcall, hcreate, happlied], hrows⟩
    · exact .inl ⟨by simp [inserted, hcall], by rw [husers]⟩

end AuthSystem

end InveniOps.Auth
