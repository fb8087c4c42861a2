import InveniOps.Lib.ListFacts
import InveniOps.RateLimit.RetryAfter
import InveniOps.Stores.Prisma

/-!
# Accounts and access tokens

The `users` table with the constraints of its migration, `PostgresUserRepository`,
`services/auth/jwt.ts` and `api/middleware/requireAuth.ts`.  The libraries behind
passwords and tokens are parameters, with what their documentation promises.
-/

namespace InveniOps.Auth

open Lib Stores

/-- `UserRole` of the schema. -/
inductive UserRole
  | RESPONDER | ADMIN
deriving DecidableEq

/-- The name of a role in the schema. -/
def UserRole.name : UserRole → String
  | RESPONDER => "RESPONDER"
  | ADMIN => "ADMIN"

/-- A row of `users`. -/
structure User where
  id : String
  email : String
  passwordHash : String
  name : String
  role : UserRole
  createdAt : Instant
deriving DecidableEq

/-- The table `users` with its primary key and its unique index. -/
structure UserTable where
  rows : List User
  id_nodup : (rows.map (·.id)).Nodup
  email_nodup : (rows.map (·.email)).Nodup

/-- What an account is made of. -/
structure CreateUserInput where
  email : String
  passwordHash : String
  name : String
deriving DecidableEq

/-- What Prisma throws for a unique field of the schema. -/
def uniqueViolation (field : String) : Thrown :=
  .store (.prisma (.knownRequest "P2002" (.arr [field])))

/-- The row that `create` inserts; `role` and `createdAt` have defaults. -/
def CreateUserInput.toRow (input : CreateUserInput) (id : String) (now : Instant) : User where
  id := id
  email := input.email
  passwordHash := input.passwordHash
  name := input.name
  role := .RESPONDER
  createdAt := now

namespace UserTable

/-- `prisma.user.create`. -/
def create (input : CreateUserInput) (id : String) (now : Instant) : Command UserTable User :=
  fun t =>
    if hid : id ∈ t.rows.map (·.id) then .error (uniqueViolation "id")
    else if hemail : input.email ∈ t.rows.map (·.email) then .error (uniqueViolation "email")
    else .ok (input.toRow id now,
      { rows := t.rows ++ [input.toRow id now]
        id_nodup := by
          rw [List.map_append]
          exact List.concat_eq_append ▸ t.id_nodup.concat hid
        email_nodup := by
          rw [List.map_append]
          exact List.concat_eq_append ▸ t.email_nodup.concat hemail })

/-- The account with an email. -/
def findByEmail (email : String) : Command UserTable (Option User) :=
  fun t => .ok (t.rows.find? (·.email = email), t)

/-- The account with an id. -/
def findById (id : String) : Command UserTable (Option User) :=
  fun t => .ok (t.rows.find? (·.id = id), t)

variable {t t' : UserTable} {input : CreateUserInput} {id : String} {now : Instant} {u u' : User}

lemma create_ok (h : create input id now t = .ok (u, t')) :
    u = input.toRow id now ∧ t'.rows = t.rows ++ [u] ∧ input.email ∉ t.rows.map (·.email) := by
  unfold create at h
  split_ifs at h with hid hemail
  simp only [Except.ok.injEq, Prod.mk.injEq] at h
  obtain ⟨rfl, rfl⟩ := h
  exact ⟨rfl, rfl, hemail⟩

/-- The index is violated by an email of the table only. -/
lemma create_error {e : Thrown} (h : create input id now t = .error e) :
    e = uniqueViolation "id" ∨
      e = uniqueViolation "email" ∧ input.email ∈ t.rows.map (·.email) := by
  unfold create at h
  split_ifs at h with hid hemail
  · exact .inl (Except.error.inj h).symm
  · exact .inr ⟨(Except.error.inj h).symm, hemail⟩

/-- An email names one row. -/
lemma eq_of_email (h : u ∈ t.rows) (h' : u' ∈ t.rows) (hemail : u.email = u'.email) : u = u' :=
  List.inj_on_of_nodup_map t.email_nodup h h' hemail

lemma find_email (h : u ∈ t.rows) : t.rows.find? (·.email = u.email) = some u :=
  find?_of_nodup_map t.email_nodup h

lemma find_id (h : u ∈ t.rows) : t.rows.find? (·.id = u.id) = some u :=
  find?_of_nodup_map t.id_nodup h

end UserTable

/-! ### Passwords -/

/-- `bcryptjs`. -/
structure Bcrypt where
  hash (cost : ℕ) (salt plaintext : String) : String
  compare (plaintext hash : String) : Bool
  /-- A password matches what it was hashed to. -/
  compare_hash : ∀ cost salt plaintext, compare plaintext (hash cost salt plaintext) = true

/-! ### Access tokens -/

/-- `AccessTokenPayload`. -/
structure AccessTokenPayload where
  sub : String
  email : String
  name : String
  role : UserRole
deriving DecidableEq

/-- The claims of the object that `signAccessToken` passes. -/
def claims (user : AccessTokenPayload) : List (String × Json) :=
  [("email", .str user.email), ("name", .str user.name), ("role", .str user.role.name)]

/-- Seconds since the Unix epoch, as tokens count them. -/
def seconds (t : Instant) : ℤ := t / 1000

/-- What `jwt.sign` makes of the claims. -/
def signedClaims (user : AccessTokenPayload) (expiresIn : ℕ) (t : Instant) : Json :=
  .obj (claims user ++ [("iat", .num (seconds t : ℤ)), ("exp", .num (seconds t + expiresIn : ℤ)),
    ("sub", .str user.sub)])

/-- `jsonwebtoken`, with HS256. -/
structure Jwt where
  sign (user : AccessTokenPayload) (secret : String) (expiresIn : ℕ) (now : Instant) : String
  verify (token secret : String) (now : Instant) : Except String Json
  /-- Until it expires, a token is verified as what was signed. -/
  verify_sign : ∀ user secret (expiresIn : ℕ) t now, seconds now < seconds t + expiresIn →
    verify (sign user secret expiresIn t) secret now = .ok (signedClaims user expiresIn t)
  verify_expired : ∀ user secret (expiresIn : ℕ) t now, seconds t + expiresIn ≤ seconds now →
    verify (sign user secret expiresIn t) secret now = .error "jwt expired"

/-- `config.auth` and the libraries. -/
structure AuthConfig where
  jwtSecret : String
  accessTokenTtlSeconds : ℕ
  bcryptCost : ℕ
  ipLimit : RateLimit.TokenBucketConfig
  emailLimit : RateLimit.TokenBucketConfig
  /-- The TTL of the buckets in Redis. -/
  ttlSeconds : ℕ
  bcrypt : Bcrypt
  jwt : Jwt
  /-- The salt of `DUMMY_PASSWORD_HASH`. -/
  dummySalt : String

/-- The field of a decoded payload; an array has none of those that are read. -/
def property (name : String) : Json → Option Json
  | .obj fields => (fields.find? (·.1 = name)).map (·.2)
  | _ => none

/-- The message of an `InvalidTokenError`. -/
def invalidTokenMessage (reason : String) : String := "invalid access token: " ++ reason

/-- The checks of `verifyAccessToken` on what `jwt.verify` returned. -/
def readClaims : Json → Except String AccessTokenPayload
  | .str _ => .error (invalidTokenMessage "payload is not an object")
  | decoded =>
    match property "sub" decoded, property "email" decoded, property "name" decoded,
        property "role" decoded with
    | some (.str sub), some (.str email), some (.str name), some (.str role) =>
      if role = "RESPONDER" then .ok ⟨sub, email, name, .RESPONDER⟩
      else if role = "ADMIN" then .ok ⟨sub, email, name, .ADMIN⟩
      else .error (invalidTokenMessage "payload is missing required claims")
    | _, _, _, _ => .error (invalidTokenMessage "payload is missing required claims")

namespace AuthConfig

variable (cfg : AuthConfig)

/-- The hash that an account keeps of a password. -/
def hashPassword (salt plaintext : String) : String :=
  cfg.bcrypt.hash cfg.bcryptCost salt plaintext

/-- The password is that of the hash. -/
def verifyPassword (plaintext hash : String) : Bool := cfg.bcrypt.compare plaintext hash

/-- The hash that a password is compared with if there is no account. -/
def DUMMY_PASSWORD_HASH : String :=
  cfg.bcrypt.hash 12 cfg.dummySalt "not-a-real-password-this-is-only-for-timing-parity"

/-- A token for a user, signed at an instant. -/
def signAccessToken (user : AccessTokenPayload) (now : Instant) : String :=
  cfg.jwt.sign user cfg.jwtSecret cfg.accessTokenTtlSeconds now

/-- `verifyAccessToken`, with the message of the `InvalidTokenError` that it throws. -/
def verifyAccessToken (token : String) (now : Instant) : Except String AccessTokenPayload :=
  match cfg.jwt.verify token cfg.jwtSecret now with
  | .error message => .error (invalidTokenMessage message)
  | .ok decoded => readClaims decoded

end AuthConfig

/-- An answer 401 of `requireAuth`. -/
structure Unauthorized where
  error : String
  message : String
deriving DecidableEq

/-- What an `Authorization` header starts with. -/
def BEARER_PREFIX : String := "Bearer "

/-- The token of a header that starts with the prefix. -/
def bearerToken (header : String) : Option String :=
  if BEARER_PREFIX.toList <+: header.toList then
    some (String.ofList (header.toList.drop BEARER_PREFIX.length))
  else none

/-- `requireAuth`: the user of the request that goes on to its handler. -/
def AuthConfig.requireAuth (cfg : AuthConfig) (header : Option String) (now : Instant) :
    Except Unauthorized AccessTokenPayload :=
  match header.bind bearerToken with
  | none => .error ⟨"unauthorized", "missing or malformed Authorization header"⟩
  | some token =>
    match cfg.verifyAccessToken token now with
    | .error message => .error ⟨"unauthorized", message⟩
    | .ok user => .ok user

/-! ### Signed tokens -/

section

variable {cfg : AuthConfig} {user : AccessTokenPayload} {t now : Instant} {token : String}

lemma readClaims_signedClaims (user : AccessTokenPayload) (expiresIn : ℕ) (t : Instant) :
    readClaims (signedClaims user expiresIn t) = .ok user := by
  obtain ⟨sub, email, name, role⟩ := user
  cases role <;> rfl

/-- Until it expires, a signed token stands for the user that it was signed for. -/
lemma verifyAccessToken_sign (h : seconds now < seconds t + cfg.accessTokenTtlSeconds) :
    cfg.verifyAccessToken (cfg.signAccessToken user t) now = .ok user := by
  rw [AuthConfig.verifyAccessToken, AuthConfig.signAccessToken, cfg.jwt.verify_sign _ _ _ _ _ h]
  exact readClaims_signedClaims user _ t

lemma verifyAccessToken_expired (h : seconds t + cfg.accessTokenTtlSeconds ≤ seconds now) :
    cfg.verifyAccessToken (cfg.signAccessToken user t) now =
      .error (invalidTokenMessage "jwt expired") := by
  rw [AuthConfig.verifyAccessToken, AuthConfig.signAccessToken,
    cfg.jwt.verify_expired _ _ _ _ _ h]

lemma bearerToken_append (token : String) : bearerToken (BEARER_PREFIX ++ token) = some token := by
  have hdrop : (BEARER_PREFIX.toList ++ token.toList).drop BEARER_PREFIX.length = token.toList :=
    List.drop_left
  rw [bearerToken, String.toList_append, if_pos (List.prefix_append _ _), hdrop,
    String.ofList_toList]

lemma requireAuth_ok {header : Option String}
    (h : cfg.requireAuth header now = .ok user) :
    ∃ token, header.bind bearerToken = some token ∧ cfg.verifyAccessToken token now = .ok user := by
  unfold AuthConfig.requireAuth at h
  split at h
  · cases h
  · rename_i token htoken
    refine ⟨token, htoken, ?_⟩
    split at h
    · cases h
    · rename_i hverify
      rw [hverify, Except.ok.inj h]

end

/-! ### Libraries for runs on fixed inputs -/

section Sample

/-- A text behind its length. -/
def framed (cs : List Char) : List Char := List.replicate cs.length '1' ++ '0' :: cs

/-- A framed text and what follows it. -/
def unframed (cs : List Char) : List Char × List Char :=
  let n := (cs.takeWhile (· = '1')).length
  let rest := (cs.dropWhile (· = '1')).tail
  (rest.take n, rest.drop n)

lemma unframed_append (cs rest : List Char) : unframed (framed cs ++ rest) = (cs, rest) := by
  simp [unframed, framed]

/-- An integer as a text. -/
def intText (z : ℤ) : List Char := (if z < 0 then '-' else '+') :: List.replicate z.natAbs 'x'

/-- The integer of such a text. -/
def intOfText (cs : List Char) : ℤ :=
  if cs.head? = some '-' then -cs.tail.length else cs.tail.length

lemma intOfText_intText (z : ℤ) : intOfText (intText z) = z := by
  unfold intText
  split_ifs with h <;> simp only [intOfText, List.head?_cons, List.tail_cons,
    List.length_replicate, Option.some.injEq, Char.reduceEq, if_true, if_false] <;> omega

/-- A token that holds its payload and its two instants, one behind the other. -/
def sampleSign (user : AccessTokenPayload) (expiresIn : ℕ) (now : Instant) : String :=
  String.ofList (framed user.sub.toList ++ (framed user.email.toList ++ (framed user.name.toList ++
    (framed user.role.name.toList ++ (framed (intText (seconds now)) ++
      framed (intText (seconds now + expiresIn)))))))

/-- The payload of such a token, until it expires. -/
def sampleVerify (token : String) (now : Instant) : Except String Json :=
  let (sub, rest) := unframed token.toList
  let (email, rest) := unframed rest
  let (name, rest) := unframed rest
  let (role, rest) := unframed rest
  let (iat, rest) := unframed rest
  let (exp, _) := unframed rest
  if intOfText exp ≤ seconds now then .error "jwt expired"
  else .ok (.obj [("email", .str (String.ofList email)), ("name", .str (String.ofList name)),
    ("role", .str (String.ofList role)), ("iat", .num (intOfText iat)),
    ("exp", .num (intOfText exp)), ("sub", .str (String.ofList sub))])

lemma sampleVerify_sampleSign (user : AccessTokenPayload) (expiresIn : ℕ) (t now : Instant) :
    sampleVerify (sampleSign user expiresIn t) now =
      if seconds t + expiresIn ≤ seconds now then .error "jwt expired"
      else .ok (signedClaims user expiresIn t) := by
  have hlast : unframed (framed (intText (seconds t + expiresIn))) =
      (intText (seconds t + expiresIn), []) := by
    simpa using unframed_append (intText (seconds t + expiresIn)) []
  simp only [sampleVerify, sampleSign, String.toList_ofList, unframed_append, hlast,
    intOfText_intText, String.ofList_toList]
  rfl

/-- Tokens that carry their claims in the clear, and passwords that hash to themselves. -/
def sampleConfig : AuthConfig where
  jwtSecret := "secret"
  accessTokenTtlSeconds := 900
  bcryptCost := 12
  ipLimit := ⟨10, 1 / 2, by decide +kernel, by decide +kernel⟩
  emailLimit := ⟨5, 1 / 10, by decide +kernel, by decide +kernel⟩
  ttlSeconds := 3600
  bcrypt :=
    { hash := fun _ _ plaintext => plaintext
      compare := fun plaintext hash => plaintext == hash
      compare_hash := fun _ _ _ => beq_self_eq_true _ }
  jwt :=
    { sign := fun user _ expiresIn now => sampleSign user expiresIn now
      verify := fun token _ now => sampleVerify token now
      verify_sign := fun user _ expiresIn t now h => by
        rw [sampleVerify_sampleSign, if_neg (not_le.2 h)]
      verify_expired := fun user _ expiresIn t now h => by
        rw [sampleVerify_sampleSign, if_pos h] }
  dummySalt := ""

end Sample

end InveniOps.Auth
