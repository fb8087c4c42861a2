import InveniOps.Auth.AuthService

/-!
# What signups and logins leave behind

In every interleaving each row of the table is the work of one signup, whose replies may
have been lost; answers and tokens speak of rows of the table; and rows never change.
-/

namespace InveniOps.Auth

open Lib Stores

variable {cfg : AuthConfig} {users₀ : UserTable} {buckets₀ : RateLimit.Buckets}
  {s s' t : AuthSystem} {e : AuthEvent} {es : List AuthEvent} {ledger : List (ℕ × User)}

/-- A token was signed for a user. -/
def Signed (cfg : AuthConfig) (user : PublicUser) (token : String) : Prop :=
  ∃ now, token = cfg.signAccessToken user.payload now

/-- Where the calls can be, and what their answers speak of. -/
def AuthCall.Sound (cfg : AuthConfig) (rows : List User) (ledger : List (ℕ × User)) (i : ℕ) :
    AuthCall → Prop
  | ⟨.signup .., .hashing⟩ | ⟨.signup .., .answered (.failed _)⟩ => True
  | ⟨.signup email password name, .creating input _⟩ =>
    ∃ salt, input = ⟨email, cfg.hashPassword salt password, name⟩
  | ⟨.signup .., .answered (.created user token)⟩ =>
    ∃ u, (i, u) ∈ ledger ∧ user = toPublicUser u ∧ Signed cfg user token
  | ⟨.signup email .., .answered .duplicateEmail⟩ => email ∈ rows.map (·.email)
  | ⟨.login .., .limiting⟩ | ⟨.login .., .finding⟩ | ⟨.login .., .comparing none⟩
  | ⟨.login .., .answered .invalidCredentials⟩ | ⟨.login .., .answered (.rateLimited _)⟩
  | ⟨.login .., .answered (.failed _)⟩ => True
  | ⟨.login _ email _, .comparing (some u)⟩ => u ∈ rows ∧ u.email = email
  | ⟨.login _ email password, .answered (.success user token)⟩ =>
    ∃ u ∈ rows, u.email = email ∧ cfg.verifyPassword password u.passwordHash = true ∧
      user = toPublicUser u ∧ Signed cfg user token
  | _ => False

lemma AuthCall.Sound.mono {rows rows' : List User} {ledger' : List (ℕ × User)} {i : ℕ}
    {call : AuthCall} (h : call.Sound cfg rows ledger i) (hrows : rows ⊆ rows')
    (hledger : ledger ⊆ ledger') : call.Sound cfg rows' ledger' i := by
  obtain ⟨request, pc⟩ := call
  unfold AuthCall.Sound at h ⊢
  split at h
  all_goals first | exact h | exact h.elim | skip
  · obtain ⟨u, hu, hrest⟩ := h
    exact ⟨u, hledger hu, hrest⟩
  · exact List.map_subset _ hrows h
  · exact ⟨hrows h.1, h.2⟩
  · obtain ⟨u, hu, hrest⟩ := h
    exact ⟨u, hrows hu, hrest⟩

/-- The table and the calls behind some insertions. -/
structure Accounted (cfg : AuthConfig) (users₀ : UserTable) (s : AuthSystem)
    (ledger : List (ℕ × User)) : Prop where
  rows : s.users.rows = users₀.rows ++ ledger.map Prod.snd
  /-- A row is what its signup asked for. -/
  made : ∀ i u, (i, u) ∈ ledger → ∃ email password name pc salt uuid now,
    s.calls[i]? = some ⟨.signup email password name, pc⟩ ∧
      u = CreateUserInput.toRow ⟨email, cfg.hashPassword salt password, name⟩ uuid now
  sound : ∀ i (call : AuthCall), s.calls[i]? = some call → call.Sound cfg s.users.rows ledger i

lemma accounted_init : Accounted cfg users₀ (.init users₀ buckets₀) [] where
  rows := by simp [AuthSystem.init]
  made := by simp
  sound := by simp [AuthSystem.init]

/-! ### Steps -/

lemma rows_of_step (hstep : s.step cfg e = some s') :
    s'.users.rows = s.users.rows ++ (s.inserted e).map Prod.snd := by
  rcases AuthSystem.inserted_cases hstep with ⟨hnone, hrows⟩ |
    ⟨i, io, email, password, name, input, attempt, rfl, hcall, hone, hrows⟩
  · simp [hnone, hrows]
  · simp [hone, hrows]

/-- A step keeps the requests of the calls. -/
lemma request_of_step (hstep : s.step cfg e = some s') {i : ℕ} {request : AuthRequest}
    {pc : AuthPc} (h : s.calls[i]? = some ⟨request, pc⟩) :
    ∃ pc', s'.calls[i]? = some ⟨request, pc'⟩ := by
  cases e with
  | call request' =>
    cases hstep
    exact ⟨pc, getElem?_concat_of h _⟩
  | turn j io =>
    obtain ⟨-, request', pc', next, hcall, hcalls, -⟩ := AuthSystem.turn_cases hstep
    rw [hcalls]
    by_cases hij : i = j
    · subst hij
      rw [h] at hcall
      cases hcall
      exact ⟨next, getElem?_set_self_of h _⟩
    · exact ⟨pc, by rw [List.getElem?_set_ne (Ne.symm hij), h]⟩

lemma Accounted.made_of_step (h : Accounted cfg users₀ s ledger) (hstep : s.step cfg e = some s')
    (i : ℕ) (u : User) (hu : (i, u) ∈ ledger ++ s.inserted e) :
    ∃ email password name pc salt uuid now,
      s'.calls[i]? = some ⟨.signup email password name, pc⟩ ∧
        u = CreateUserInput.toRow ⟨email, cfg.hashPassword salt password, name⟩ uuid now := by
  rcases List.mem_append.1 hu with hold | hnew
  · obtain ⟨email, password, name, pc, salt, uuid, now, hcall, hrow⟩ := h.made i u hold
    obtain ⟨pc', hcall'⟩ := request_of_step hstep hcall
    exact ⟨email, password, name, pc', salt, uuid, now, hcall', hrow⟩
  · rcases AuthSystem.inserted_cases hstep with ⟨hnone, -⟩ |
      ⟨j, io, email, password, name, input, attempt, -, hcall, hone, -⟩
    · simp [hnone] at hnew
    · rw [hone, List.mem_singleton] at hnew
      cases hnew
      obtain ⟨salt, rfl⟩ := h.sound _ _ hcall
      obtain ⟨pc', hcall'⟩ := request_of_step hstep hcall
      exact ⟨email, password, name, pc', salt, io.uuid, io.now, hcall', rfl⟩

/-- A turn of a signup leaves its call where it can be. -/
lemma sound_of_signupTurn {i : ℕ} {io : AuthIo} {email password name : String} {pc pc' : AuthPc}
    {users' : UserTable} (h : Accounted cfg users₀ s ledger) (hio : io.violates = false)
    (hcall : s.calls[i]? = some ⟨.signup email password name, pc⟩)
    (hturn : signupTurn cfg s.users email password name io pc = some (users', pc')) :
    AuthCall.Sound cfg users'.rows (ledger ++ s.inserted (.turn i io)) i
      ⟨.signup email password name, pc'⟩ := by
  have hsound := h.sound i _ hcall
  rcases signupTurn_cases hio hturn with ⟨rfl, -, rfl⟩ | ⟨input, attempt, rfl, -, hpc⟩
  · exact ⟨io.salt, rfl⟩
  · rcases hpc with ⟨user, hcreate, hok, rfl⟩ | ⟨next, rfl⟩ | ⟨rfl, rfl, hemail⟩ | ⟨e, rfl⟩
    · have hinserted : s.inserted (.turn i io) = [(i, user)] := by
        simp [AuthSystem.inserted, hcall, hcreate, hok, Outcome.isApplied]
      exact ⟨user, by simp [hinserted], rfl, io.now, rfl⟩
    · exact hsound
    · obtain ⟨salt, rfl⟩ := hsound
      exact hemail
    · trivial

lemma sound_of_loginTurn {i : ℕ} {io : AuthIo} {ip email password : String} {pc pc' : AuthPc}
    {buckets' : RateLimit.Buckets} (h : Accounted cfg users₀ s ledger)
    (hcall : s.calls[i]? = some ⟨.login ip email password, pc⟩)
    (hturn : loginTurn cfg s.users s.buckets ip email password io pc = some (buckets', pc')) :
    AuthCall.Sound cfg s.users.rows ledger i ⟨.login ip email password, pc'⟩ := by
  have hsound := h.sound i _ hcall
  rcases loginTurn_cases hturn with ⟨-, rfl | ⟨n, rfl⟩⟩ | ⟨-, rfl | ⟨e, rfl⟩⟩ |
    ⟨user, rfl, rfl⟩ | ⟨-, rfl⟩
  · trivial
  · trivial
  · cases hfind : s.users.rows.find? (·.email = email) with
    | none => trivial
    | some u => exact ⟨List.mem_of_find?_eq_some hfind, by simpa using List.find?_some hfind⟩
  · trivial
  · split_ifs with hverify
    · exact ⟨user, hsound.1, hsound.2, hverify, rfl, io.now, rfl⟩
    · trivial
  · trivial

lemma Accounted.step (h : Accounted cfg users₀ s ledger) (hstep : s.step cfg e = some s') :
    Accounted cfg users₀ s' (ledger ++ s.inserted e) := by
  have hrows := rows_of_step hstep
  refine ⟨?_, h.made_of_step hstep, ?_⟩
  · rw [hrows, h.rows, List.map_append, List.append_assoc]
  · intro i call hcall
    have hkept : ∀ call : AuthCall, s.calls[i]? = some call →
        call.Sound cfg s'.users.rows (ledger ++ s.inserted e) i := fun call hcall =>
      (h.sound i call hcall).mono (hrows ▸ List.subset_append_left _ _)
        (List.subset_append_left _ _)
    cases e with
    | call request =>
      cases hstep
      rcases getElem?_concat_cases hcall with ⟨-, rfl⟩ | hold
      · cases request <;> trivial
      · exact hkept call hold
    | turn j io =>
      obtain ⟨hio, request, pc, pc', hold, hcalls, hturn⟩ := AuthSystem.turn_cases hstep
      rw [hcalls] at hcall
      rcases getElem?_set_cases hcall with ⟨rfl, rfl⟩ | ⟨-, hother⟩
      · rcases hturn with ⟨email, password, name, rfl, hturn⟩ |
          ⟨ip, email, password, rfl, husers, hturn⟩
        · exact sound_of_signupTurn h hio hold hturn
        · exact (sound_of_loginTurn h hold hturn).mono (husers ▸ List.Subset.refl _)
            (List.subset_append_left _ _)
      · exact hkept call hother

/-- The insertions of a run account for its table and its calls. -/
lemma accounted_of_run
    (hrun : (AuthSystem.lts cfg).run (.init users₀ buckets₀) es = some s) :
    Accounted cfg users₀ s ((AuthSystem.lts cfg).emitted AuthSystem.inserted
      (.init users₀ buckets₀) es) := by
  have h := Lts.run_invariant_emitted (f := AuthSystem.inserted) (P := fun _ _ => True)
    (I := Accounted cfg users₀) (fun _ _ _ _ h _ hstep => h.step hstep) hrun
    (Lts.meets_of_forall (fun _ _ => trivial) _ _) accounted_init
  exact h

/-! ### Accounts -/

/-- The row of an insertion is in the table, and none of those that it began with. -/
lemma Accounted.mem_rows (h : Accounted cfg users₀ s ledger) {i : ℕ} {u : User}
    (hu : (i, u) ∈ ledger) : u ∈ s.users.rows ∧ u ∉ users₀.rows := by
  have hmem : u ∈ ledger.map Prod.snd := List.mem_map_of_mem hu
  have hnodup : s.users.rows.Nodup := s.users.id_nodup.of_map
  rw [h.rows] at hnodup ⊢
  exact ⟨List.mem_append_right _ hmem,
    fun hold => (List.nodup_append.1 hnodup).2.2 u hold u hmem rfl⟩

/-- Insertions of one email are one insertion. -/
lemma Accounted.eq_of_email (h : Accounted cfg users₀ s ledger) {i j : ℕ} {u v : User}
    (hu : (i, u) ∈ ledger) (hv : (j, v) ∈ ledger) (hemail : u.email = v.email) :
    (i, u) = (j, v) := by
  have hnodup := s.users.email_nodup
  rw [h.rows, List.map_append, List.map_map] at hnodup
  exact List.inj_on_of_nodup_map (List.nodup_append.1 hnodup).2.1 hu hv hemail

/-- The account of a signup that was told so. -/
lemma Accounted.created (h : Accounted cfg users₀ s ledger) {i : ℕ} {email password name : String}
    {user : PublicUser} {token : String}
    (hcall : s.Answered i (.signup email password name) (.created user token)) :
    ∃ u, (i, u) ∈ ledger ∧ user = toPublicUser u ∧ u.email = email ∧ u.name = name ∧
      cfg.verifyPassword password u.passwordHash = true := by
  obtain ⟨u, hu, huser, -⟩ := h.sound i _ hcall
  obtain ⟨email', password', name', pc, salt, uuid, now, hcall', rfl⟩ := h.made i u hu
  rw [hcall] at hcall'
  cases hcall'
  exact ⟨_, hu, huser, rfl, rfl, cfg.bcrypt.compare_hash _ _ _⟩

/-- Accounts stay as they are and where they are. -/
lemma rows_of_run (hrun : (AuthSystem.lts cfg).run s es = some t) :
    s.users.rows <+: t.users.rows := by
  refine Lts.run_invariant (I := fun t : AuthSystem => s.users.rows <+: t.users.rows) ?_ hrun
    (List.prefix_refl _)
  intro t e t' hrows hstep
  rw [rows_of_step hstep]
  exact hrows.trans (List.prefix_append _ _)

/-- **Signups.**  However signups interleave, are retried and lose their replies: accounts never
change or vanish from any state of the run on, each new one was made by a signup with its email,
name and password and is a responder's, a signup that was told so made its account, of no email
are two signups told so, and `duplicate_email` is never said of an email without an account. -/
theorem signups_of_run
    (hrun : (AuthSystem.lts cfg).run (.init users₀ buckets₀) es = some s) :
    (∀ pre post t, es = pre ++ post →
      (AuthSystem.lts cfg).run (.init users₀ buckets₀) pre = some t →
        users₀.rows <+: t.users.rows ∧ t.users.rows <+: s.users.rows) ∧
    (∀ u ∈ s.users.rows, u ∉ users₀.rows → u.role = .RESPONDER ∧
      ∃ (i : ℕ) (password : String) (pc : AuthPc),
      s.calls[i]? = some ⟨.signup u.email password u.name, pc⟩ ∧
        cfg.verifyPassword password u.passwordHash = true) ∧
    (∀ i email password name user token,
      s.Answered i (.signup email password name) (.created user token) →
      ∃ u ∈ s.users.rows, u ∉ users₀.rows ∧ user = toPublicUser u ∧ u.email = email ∧
        u.name = name ∧ cfg.verifyPassword password u.passwordHash = true) ∧
    (∀ i j email password password' name name' user user' token token',
      s.Answered i (.signup email password name) (.created user token) →
      s.Answered j (.signup email password' name') (.created user' token') →
      i = j) ∧
    ∀ i email password name,
      s.Answered i (.signup email password name) .duplicateEmail →
      ∃ u ∈ s.users.rows, u.email = email := by
  have h := accounted_of_run hrun
  refine ⟨?_, ?_, ?_, ?_, ?_⟩
  · rintro pre post t rfl hpre
    obtain ⟨t', ht', hpost⟩ := Lts.run_append_inv hrun
    obtain rfl := Option.some.inj (hpre.symm.trans ht')
    exact ⟨rows_of_run hpre, rows_of_run hpost⟩
  · intro u hu hnew
    rw [h.rows, List.mem_append, List.mem_map] at hu
    obtain ⟨⟨i, u⟩, hledger, rfl⟩ := hu.resolve_left hnew
    obtain ⟨email, password, name, pc, salt, uuid, now, hcall, rfl⟩ := h.made i u hledger
    exact ⟨rfl, i, password, pc, hcall, cfg.bcrypt.compare_hash _ _ _⟩
  · intro i email password name user token hcall
    obtain ⟨u, hledger, huser, hemail, hname, hpassword⟩ := h.created hcall
    obtain ⟨hmem, hnew⟩ := h.mem_rows hledger
    exact ⟨u, hmem, hnew, huser, hemail, hname, hpassword⟩
  · intro i j email password password' name name' user user' token token' hi hj
    obtain ⟨u, hu, -, hemail, -⟩ := h.created hi
    obtain ⟨v, hv, -, hemail', -⟩ := h.created hj
    exact congrArg Prod.fst (h.eq_of_email hu hv (hemail.trans hemail'.symm))
  · intro i email password name hcall
    obtain ⟨u, hu, hemail⟩ := List.mem_map.1 (h.sound i _ hcall)
    exact ⟨u, hu, hemail⟩

/-- A turn at an instant, with the outcome of its command. -/
def turnAt (i : ℕ) (now : Instant) (outcome : Outcome) : AuthEvent :=
  .turn i ⟨outcome, "u1", "salt", now⟩

/-- A signup whose first attempt inserts its row and loses the reply. -/
def lostReplyEvents : List AuthEvent :=
  [.call (.signup "operator@example.com" "correct horse" "Test Operator"), turnAt 0 1000 .ok,
    turnAt 0 1200 (.fault true (.prisma (.knownRequest "P1017" .undefined))),
    .turn 0 ⟨.ok, "u2", "salt", 1300⟩]

/-- A table without accounts. -/
def noUsers : UserTable := ⟨[], List.nodup_nil, List.nodup_nil⟩

/-- Nobody has called yet, and there are no accounts. -/
def firstState : AuthSystem := .init noUsers fun _ => none

/-- The retry is told that the email is taken, by the account that it has made itself. -/
theorem signups_of_run_of_lostReply :
    ∃ s, (AuthSystem.lts sampleConfig).run firstState lostReplyEvents = some s ∧
      s.Answered 0 (.signup "operator@example.com" "correct horse" "Test Operator")
        .duplicateEmail ∧
      ∃ u ∈ s.users.rows, u.email = "operator@example.com" := by
  have hobserved : ((AuthSystem.lts sampleConfig).run firstState lostReplyEvents).map
      (·.calls[0]?) = some (some ⟨.signup "operator@example.com" "correct horse" "Test Operator",
        .answered .duplicateEmail⟩) := by
    decide +kernel
  obtain ⟨s, hrun, hcall⟩ := Option.map_eq_some_iff.1 hobserved
  exact ⟨s, hrun, hcall, (signups_of_run hrun).2.2.2.2 0 _ _ _ hcall⟩

/-! ### Logins -/

/-- What a login knows of the rows that were there when it was called. -/
def AuthCall.Informed (cfg : AuthConfig) (rows : List User) : AuthCall → Prop
  | ⟨.login _ email _, .comparing user⟩ => ∀ u ∈ rows, u.email = email → user = some u
  | ⟨.login _ email password, .answered .invalidCredentials⟩ =>
    ∀ u ∈ rows, u.email = email → cfg.verifyPassword password u.passwordHash = false
  | _ => True

lemma informed_of_turn {rows : List User} {io : AuthIo} {request : AuthRequest}
    {pc pc' : AuthPc} (hrows : rows ⊆ s.users.rows)
    (hinformed : AuthCall.Informed cfg rows ⟨request, pc⟩)
    (hturn : (∃ email password name, request = .signup email password name ∧
          signupTurn cfg s.users email password name io pc = some (s'.users, pc')) ∨
        ∃ ip email password, request = .login ip email password ∧ s'.users = s.users ∧
          loginTurn cfg s.users s.buckets ip email password io pc = some (s'.buckets, pc')) :
    AuthCall.Informed cfg rows ⟨request, pc'⟩ := by
  rcases hturn with ⟨email, password, name, rfl, -⟩ | ⟨ip, email, password, rfl, -, hturn⟩
  · cases pc' <;> trivial
  · rcases loginTurn_cases hturn with ⟨-, rfl | ⟨n, rfl⟩⟩ | ⟨-, rfl | ⟨e, rfl⟩⟩ |
      ⟨user, rfl, rfl⟩ | ⟨rfl, rfl⟩
    · trivial
    · trivial
    · intro u hu hemail
      rw [← hemail]
      exact UserTable.find_email (hrows hu)
    · trivial
    · split_ifs with hverify
      · trivial
      · intro u hu hemail
        rw [← Option.some.inj (hinformed u hu hemail)]
        exact Bool.eq_false_iff.2 hverify
    · intro u hu hemail
      cases hinformed u hu hemail

/-- The logins that were called behind a state know its rows. -/
lemma informed_of_run (hrun : (AuthSystem.lts cfg).run s es = some t) :
    s.users.rows ⊆ t.users.rows ∧ s.calls.length ≤ t.calls.length ∧
      ∀ j (call : AuthCall), s.calls.length ≤ j → t.calls[j]? = some call →
        call.Informed cfg s.users.rows := by
  refine Lts.run_invariant (I := fun t : AuthSystem => s.users.rows ⊆ t.users.rows ∧
    s.calls.length ≤ t.calls.length ∧ ∀ j (call : AuthCall), s.calls.length ≤ j →
      t.calls[j]? = some call → call.Informed cfg s.users.rows) ?_ hrun
    ⟨List.Subset.refl _, le_rfl, fun j call hj hcall => ?_⟩
  · rintro t e t' ⟨hrows, hlength, hcalls⟩ hstep
    refine ⟨List.Subset.trans hrows (rows_of_step hstep ▸ List.subset_append_left _ _), ?_⟩
    cases e with
    | call request =>
      cases hstep
      refine ⟨by simpa using Nat.le_succ_of_le hlength, fun j call hj hcall => ?_⟩
      rcases getElem?_concat_cases hcall with ⟨-, rfl⟩ | hold
      · cases request <;> trivial
      · exact hcalls j call hj hold
    | turn i io =>
      obtain ⟨-, request, pc, pc', hold, hset, hturn⟩ := AuthSystem.turn_cases hstep
      rw [hset]
      refine ⟨by simpa using hlength, fun j call hj hcall => ?_⟩
      rcases getElem?_set_cases hcall with ⟨rfl, rfl⟩ | ⟨-, hother⟩
      · exact informed_of_turn hrows (hcalls j _ hj hold) hturn
      · exact hcalls j call hj hother
  · rw [List.getElem?_eq_none hj] at hcall
    cases hcall

/-- **Logins.**  A login that is neither rate limited nor broken off by the table is answered as
the stored hash decides: with an account of its email that accepts the password, or, if it is
refused, no account that was there when it was called does. -/
theorem login_answers {es₀ : List AuthEvent}
    (hreach : (AuthSystem.lts cfg).run (.init users₀ buckets₀) es₀ = some s)
    (hrun : (AuthSystem.lts cfg).run s es = some t) {j : ℕ} (hj : s.calls.length ≤ j)
    {ip email password : String} {answer : AuthAnswer}
    (hcall : t.Answered j (.login ip email password) answer) :
    (∃ n, answer = .rateLimited n) ∨ (∃ e, answer = .failed e) ∨
    (answer = .invalidCredentials ∧ ∀ u ∈ s.users.rows, u.email = email →
      cfg.verifyPassword password u.passwordHash = false) ∨
    ∃ u ∈ t.users.rows, u.email = email ∧ cfg.verifyPassword password u.passwordHash = true ∧
      ∃ token, answer = .success (toPublicUser u) token ∧ Signed cfg (toPublicUser u) token := by
  have hwhole : (AuthSystem.lts cfg).run (.init users₀ buckets₀) (es₀ ++ es) = some t := by
    rw [Lts.run_append, hreach]
    exact hrun
  have hsound := (accounted_of_run hwhole).sound j _ hcall
  have hinformed := (informed_of_run hrun).2.2 j _ hj hcall
  cases answer with
  | rateLimited n => exact .inl ⟨n, rfl⟩
  | failed e => exact .inr (.inl ⟨e, rfl⟩)
  | invalidCredentials => exact .inr (.inr (.inl ⟨rfl, hinformed⟩))
  | success user token =>
    obtain ⟨u, hu, hemail, hpassword, rfl, hsigned⟩ := hsound
    exact .inr (.inr (.inr ⟨u, hu, hemail, hpassword, token, rfl, hsigned⟩))
  | created user token => exact hsound.elim
  | duplicateEmail => exact hsound.elim

/-- A login with the password of that signup. -/
def loginEvents : List AuthEvent :=
  [.call (.login "10.0.0.1" "operator@example.com" "correct horse"), turnAt 1 2000 .ok,
    turnAt 1 2001 .ok, turnAt 1 2300 .ok]

theorem login_answers_of_lostReply :
    ∃ s t answer, (AuthSystem.lts sampleConfig).run firstState lostReplyEvents = some s ∧
      (AuthSystem.lts sampleConfig).run s loginEvents = some t ∧
      t.Answered 1 (.login "10.0.0.1" "operator@example.com" "correct horse") answer ∧
      ((∃ n, answer = .rateLimited n) ∨ (∃ e, answer = .failed e) ∨
        (answer = .invalidCredentials ∧ ∀ u ∈ s.users.rows, u.email = "operator@example.com" →
          sampleConfig.verifyPassword "correct horse" u.passwordHash = false) ∨
        ∃ u ∈ t.users.rows, u.email = "operator@example.com" ∧
          sampleConfig.verifyPassword "correct horse" u.passwordHash = true ∧
          ∃ token, answer = .success (toPublicUser u) token ∧
            Signed sampleConfig (toPublicUser u) token) := by
  have hcalled : ((AuthSystem.lts sampleConfig).run firstState lostReplyEvents).map
      (·.calls.length) = some 1 := by decide +kernel
  obtain ⟨s, hreach, hlength⟩ := Option.map_eq_some_iff.1 hcalled
  have hobserved : ((AuthSystem.lts sampleConfig).run firstState
      (lostReplyEvents ++ loginEvents)).map (·.calls[1]?.map fun call =>
        (call.request, call.pc.isAnswered)) =
        some (some (.login "10.0.0.1" "operator@example.com" "correct horse", true)) := by
    decide +kernel
  obtain ⟨t, hwhole, hpc⟩ := Option.map_eq_some_iff.1 hobserved
  rw [Lts.run_append, hreach, Option.bind_some] at hwhole
  obtain ⟨⟨request, pc⟩, hcall, hanswered⟩ := Option.map_eq_some_iff.1 hpc
  obtain ⟨rfl, hanswered⟩ := Prod.mk.injEq .. ▸ hanswered
  cases pc with
  | answered answer =>
    exact ⟨s, t, answer, hreach, hwhole, hcall, login_answers hreach hwhole (by omega) hcall⟩
  | _ => cases hanswered

/-! ### Tokens -/

/-- Somebody has signed up for the account, or logged in to it, with its password. -/
def LoggedIn (cfg : AuthConfig) (s : AuthSystem) (u : User) : Prop :=
  ∃ i password token, cfg.verifyPassword password u.passwordHash = true ∧
    ((∃ name, s.Answered i (.signup u.email password name) (.created (toPublicUser u) token)) ∨
      ∃ ip, s.Answered i (.login ip u.email password) (.success (toPublicUser u) token))

/-- A token that was handed out was signed for an account, and given to its owner. -/
lemma Accounted.signed (h : Accounted cfg users₀ s ledger) {token : String}
    (htoken : token ∈ s.issued) :
    ∃ u ∈ s.users.rows, LoggedIn cfg s u ∧ Signed cfg (toPublicUser u) token := by
  obtain ⟨⟨request, pc⟩, hmem, hgiven⟩ := List.mem_filterMap.1 htoken
  obtain ⟨i, hcall⟩ := List.mem_iff_getElem?.1 hmem
  have hsound := h.sound i _ hcall
  simp only at hgiven
  split at hgiven <;> cases hgiven
  · cases request with
    | signup email password name =>
      obtain ⟨u, hu, rfl, hsigned⟩ := hsound
      obtain ⟨email', password', name', pc, salt, uuid, now, hcall', rfl⟩ := h.made i u hu
      rw [hcall] at hcall'
      cases hcall'
      exact ⟨_, (h.mem_rows hu).1,
        ⟨i, password, token, cfg.bcrypt.compare_hash _ _ _, .inl ⟨name, hcall⟩⟩, hsigned⟩
    | login ip email password => exact hsound.elim
  · cases request with
    | signup email password name => exact hsound.elim
    | login ip email password =>
      obtain ⟨u, hu, rfl, hpassword, rfl, hsigned⟩ := hsound
      exact ⟨u, hu, ⟨i, password, token, hpassword, .inr ⟨ip, hcall⟩⟩, hsigned⟩

/-- An answer is the last turn of its call. -/
lemma answered_of_step (hstep : s.step cfg e = some s') {i : ℕ} {request : AuthRequest}
    {answer : AuthAnswer} (h : s.Answered i request answer) : s'.Answered i request answer := by
  cases e with
  | call request' =>
    cases hstep
    exact getElem?_concat_of h _
  | turn j io =>
    obtain ⟨-, request', pc, pc', hcall, hcalls, hturn⟩ := AuthSystem.turn_cases hstep
    have hne : j ≠ i := by
      rintro rfl
      cases h.symm.trans hcall
      rcases hturn with ⟨_, _, _, -, hturn⟩ | ⟨_, _, _, -, -, hturn⟩ <;> cases hturn
    show s'.calls[i]? = _
    rw [hcalls, List.getElem?_set_ne hne]
    exact h

lemma LoggedIn.of_step {u : User} (h : LoggedIn cfg s u) (hstep : s.step cfg e = some s') :
    LoggedIn cfg s' u := by
  obtain ⟨i, password, token, hpassword, ⟨name, hcall⟩ | ⟨ip, hcall⟩⟩ := h
  · exact ⟨i, password, token, hpassword, .inl ⟨name, answered_of_step hstep hcall⟩⟩
  · exact ⟨i, password, token, hpassword, .inr ⟨ip, answered_of_step hstep hcall⟩⟩

/-- A signed token is accepted for nobody else. -/
lemma email_of_signed {u : User} {token : String} (h : Signed cfg (toPublicUser u) token)
    {now : Instant} {user : AccessTokenPayload}
    (haccepted : cfg.verifyAccessToken token now = .ok user) : user.email = u.email := by
  obtain ⟨signedAt, rfl⟩ := h
  by_cases hfresh : seconds now < seconds signedAt + cfg.accessTokenTtlSeconds
  · rw [verifyAccessToken_sign hfresh] at haccepted
    cases haccepted
    rfl
  · rw [verifyAccessToken_expired (not_lt.1 hfresh)] at haccepted
    cases haccepted

/-- **Tokens.**  Every token that was handed out stands for one account, in every later state: it
is accepted as that account until it expires and as nobody behind that, and `GET /me` finds the
account. -/
theorem tokens_of_run (hrun : (AuthSystem.lts cfg).run (.init users₀ buckets₀) es = some s)
    {token : String} (htoken : token ∈ s.issued) :
    ∃ u ∈ s.users.rows, ∃ signedAt, ∀ now,
      if seconds now < seconds signedAt + cfg.accessTokenTtlSeconds then
        cfg.requireAuth (some (BEARER_PREFIX ++ token)) now = .ok (toPublicUser u).payload ∧
          handleMe cfg s.users (some (BEARER_PREFIX ++ token)) now .ok = .ok (toPublicUser u)
      else
        cfg.requireAuth (some (BEARER_PREFIX ++ token)) now =
            .error ⟨"unauthorized", "invalid access token: jwt expired"⟩ ∧
          handleMe cfg s.users (some (BEARER_PREFIX ++ token)) now .ok =
            .unauthorized ⟨"unauthorized", "invalid access token: jwt expired"⟩ := by
  obtain ⟨u, hu, -, signedAt, rfl⟩ := (accounted_of_run hrun).signed htoken
  refine ⟨u, hu, signedAt, fun now => ?_⟩
  split_ifs with hfresh
  · have haccepted : cfg.requireAuth (some (BEARER_PREFIX ++
        cfg.signAccessToken (toPublicUser u).payload signedAt)) now =
          .ok (toPublicUser u).payload := by
      simp only [AuthConfig.requireAuth, Option.bind_some, bearerToken_append,
        verifyAccessToken_sign hfresh]
    refine ⟨haccepted, ?_⟩
    have hfind : UserTable.findById (toPublicUser u).payload.sub s.users =
        .ok (some u, s.users) := by
      rw [UserTable.findById, show (toPublicUser u).payload.sub = u.id from rfl,
        UserTable.find_id hu]
    simp only [handleMe, haccepted, perform_ok_of hfind]
  · have hrefused : cfg.requireAuth (some (BEARER_PREFIX ++
        cfg.signAccessToken (toPublicUser u).payload signedAt)) now =
          .error ⟨"unauthorized", "invalid access token: jwt expired"⟩ := by
      simp only [AuthConfig.requireAuth, Option.bind_some, bearerToken_append,
        verifyAccessToken_expired (not_lt.1 hfresh)]
      rfl
    exact ⟨hrefused, by simp only [handleMe, hrefused]⟩

/-- The token of that login, at one instant and behind its expiry. -/
theorem tokens_of_run_of_login :
    ∃ s, (AuthSystem.lts sampleConfig).run firstState (lostReplyEvents ++ loginEvents) = some s ∧
      ∃ token ∈ s.issued, ∃ u ∈ s.users.rows, ∃ signedAt, ∀ now,
        if seconds now < seconds signedAt + 900 then
          sampleConfig.requireAuth (some (BEARER_PREFIX ++ token)) now =
              .ok (toPublicUser u).payload ∧
            handleMe sampleConfig s.users (some (BEARER_PREFIX ++ token)) now .ok =
              .ok (toPublicUser u)
        else
          sampleConfig.requireAuth (some (BEARER_PREFIX ++ token)) now =
              .error ⟨"unauthorized", "invalid access token: jwt expired"⟩ ∧
            handleMe sampleConfig s.users (some (BEARER_PREFIX ++ token)) now .ok =
              .unauthorized ⟨"unauthorized", "invalid access token: jwt expired"⟩ := by
  have hobserved : ((AuthSystem.lts sampleConfig).run firstState
      (lostReplyEvents ++ loginEvents)).map (·.issued.length) = some 1 := by
    decide +kernel
  obtain ⟨s, hrun, hissued⟩ := Option.map_eq_some_iff.1 hobserved
  obtain ⟨token, htoken⟩ := List.exists_mem_of_length_pos (by omega : 0 < s.issued.length)
  exact ⟨s, hrun, token, htoken, tokens_of_run hrun htoken⟩

end InveniOps.Auth
