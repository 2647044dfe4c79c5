import ForestPanel.Lib.Transition
import ForestPanel.Passport.Accounts

/-!
# Logins

The requests that give out login tokens and authentication data. `TokenLogin` reads its token
and, later, looks the user up, deletes the token and signs a session; other requests come in
between. Every other request is one step. Random tokens are never drawn twice, and an
authentication token that is accepted names a user and a session, as its signature is not forged.

`World.issued` is an observation: the user that each token was made for.
-/
namespace ForestPanel.Logins

open Outcome Passport

structure Pending where
  token : String
  userIDValue : String
deriving DecidableEq, Repr

structure World where
  accounts : Passport.World
  pending : Nat → Option Pending
  issued : String → Option Int

def World.start : World := ⟨Passport.World.start, fun _ => none, fun _ => none⟩

structure LoginRequest where
  email : String
  password : String
  session : String

structure TokenLoginRequest where
  token : String
  verify : String
  redirect : String

structure QuickLoginRequest where
  /-- What the signed token in the request names. -/
  authData : Option AuthData
  redirect : String
  code : String

structure LoginWithMailLinkRequest where
  email : String
  redirect : String
  code : String

inductive Answer
  | refused (e : HTTPError)
  | done
  | redirect (url : String)
  | auth (data : AuthData)
  | link (userId : Int) (url : String)
deriving DecidableEq

inductive Input
  | wait (seconds : Nat)
  /-- An administrator bans a user or ends the ban. -/
  | setBanned (userId banned : Int)
  | sendEmailVerify (req : SendEmailVerifyRequest) (drawn : Nat)
  | register (req : RegisterRequest)
  | login (req : LoginRequest)
  | forget (req : ForgetRequest)
  | tokenLogin (n : Nat) (req : TokenLoginRequest)
  | finishTokenLogin (n : Nat) (session : String)
  | getQuickLoginURL (req : QuickLoginRequest)
  | loginWithMailLink (req : LoginWithMailLinkRequest)

section

variable (lib : Library) (cfg : Config)

def buildFrontendURL (path : String) : String :=
  let appURL := trimSpace cfg.appURL
  if appURL = "" then path else trimRightSlash appURL ++ path

def redirectOf (redirect : String) : String :=
  if trimSpace redirect = "" then "dashboard" else trimSpace redirect

def loginPath (verify redirect : String) : String :=
  "/#/login?verify=" ++ verify ++ "&redirect=" ++ redirectOf redirect

def answerOf (result : Except HTTPError AuthData) : Answer :=
  match result with
  | .ok data => .auth data
  | .error e => .refused e

def doneOf (result : Except HTTPError Unit) : Answer :=
  match result with
  | .ok _ => .done
  | .error e => .refused e

def loginUser (w : Passport.World) (req : LoginRequest) : Except HTTPError User := do
  let user ← require (w.findUserByEmail lib (normalEmail lib req.email))
    (failure "Incorrect email or password")
  ensure (lib.verify user.passwordAlgo user.passwordSalt (trimSpace req.password) user.password =
    true) (failure "Incorrect email or password")
  ensure (user.banned = 0) (failure "Your account has been suspended")
  return user

def countPassword (w : Passport.World) (req : LoginRequest) : Kv :=
  match w.findUserByEmail lib (normalEmail lib req.email) with
  | some user =>
    if cfg.passwordLimitEnabled = true ∧ lib.verify user.passwordAlgo user.passwordSalt
        (trimSpace req.password) user.password = false then
      (kvIncrWithBase w.kv w.now (cacheKey .passwordErrorLimit (normalEmail lib req.email))
        (cfg.passwordLimitExpireMin * 60) 0).2
    else w.kv
  | none => w.kv

def loginChecks (w : Passport.World) (req : LoginRequest) : Except HTTPError Unit := do
  let email := normalEmail lib req.email
  validateEmail lib email
  ensure (8 ≤ (trimSpace req.password).utf8ByteSize)
    (failure "Password must be greater than 8 digits")
  ensure (cfg.passwordLimitEnabled = true →
      kvGetInt w.kv w.now (cacheKey .passwordErrorLimit email) < cfg.passwordLimitCount)
    (failure ("There are too many password errors, please try again after " ++
      formatInt cfg.passwordLimitExpireMin ++ " minutes."))

def login (w : Passport.World) (req : LoginRequest) : Except HTTPError AuthData × Passport.World :=
  match loginChecks lib cfg w req with
  | .error e => (.error e, w)
  | .ok () =>
    match loginUser lib w req with
    | .error e => (.error e, { w with kv := countPassword lib cfg w req })
    | .ok user => createAuthData cfg w user.id req.session

def tokenLogin (w : World) (n : Nat) (req : TokenLoginRequest) : Answer × World :=
  let token := trimSpace req.token
  let verify := trimSpace req.verify
  if token ≠ "" then (.redirect (buildFrontendURL cfg (loginPath token req.redirect)), w)
  else if verify = "" then (.done, w)
  else
    match kvGet w.accounts.kv w.accounts.now (cacheKey .tempToken verify) with
    | none => (.refused (failure "Token error"), w)
    | some userIDValue =>
      (.done, { w with pending := Function.update w.pending n (some ⟨verify, userIDValue⟩) })

def tokenUser (w : Passport.World) (userIDValue : String) : Except HTTPError User := do
  let userID ← require (parseInt userIDValue) (failure "Token error")
  let user ← require (w.users.find? fun u => u.id = userID) (failure "The user does not ")
  ensure (user.banned = 0) (failure "Your account has been suspended")
  return user

def finishTokenLogin (w : World) (n : Nat) (p : Pending) (session : String) : Answer × World :=
  let w := { w with pending := Function.update w.pending n none }
  match tokenUser w.accounts p.userIDValue with
  | .error e => (.refused e, w)
  | .ok user =>
    let accounts := { w.accounts with kv := kvDelete w.accounts.kv (cacheKey .tempToken p.token) }
    let served := createAuthData cfg accounts user.id session
    (answerOf served.1, { w with accounts := served.2 })

/-- `userFromAuthToken`: the session is there and its user is not banned. -/
def userFromAuthToken (w : Passport.World) (authData : Option AuthData) : Option User :=
  match authData with
  | none => none
  | some data =>
    if trimSpace data.session ≠ "" ∧ data ∈ w.sessions then
      (w.users.find? fun u => u.id = data.id).filter fun u => u.banned = 0
    else none

def World.issue (w : World) (code : String) (userId ttl : Int) : World :=
  { w with
    accounts := { w.accounts with
      kv := kvSet w.accounts.kv w.accounts.now (cacheKey .tempToken code) (formatInt userId) ttl }
    issued := Function.update w.issued code (some userId) }

def getQuickLoginURL (w : World) (req : QuickLoginRequest) : Answer × World :=
  match userFromAuthToken w.accounts req.authData with
  | none => (.refused ⟨403, "未登录或登陆已过期"⟩, w)
  | some user =>
    (.link user.id (buildFrontendURL cfg (loginPath req.code req.redirect)),
      w.issue req.code user.id 60)

def mailLinkChecks (w : Passport.World) (req : LoginWithMailLinkRequest) :
    Except HTTPError Unit := do
  ensure (cfg.loginWithMailLink = true) ⟨404, "Not Found"⟩
  let email := normalEmail lib req.email
  validateEmail lib email
  ensure (kvGet w.kv w.now (cacheKey .lastSendMailLogin email) = none)
    (failure "Sending frequently, please try again later")

def loginWithMailLink (w : World) (req : LoginWithMailLinkRequest) : Answer × World :=
  match mailLinkChecks lib cfg w.accounts req with
  | .error e => (.refused e, w)
  | .ok () =>
    match w.accounts.findUserByEmail lib (normalEmail lib req.email) with
    | none => (.done, w)
    | some user =>
      let w := w.issue req.code user.id 300
      let key := cacheKey .lastSendMailLogin (normalEmail lib req.email)
      (.link user.id (buildFrontendURL cfg (loginPath req.code req.redirect)),
        { w with accounts := { w.accounts with
          kv := kvSet w.accounts.kv w.accounts.now key (formatInt w.accounts.now) 60 } })

/-- A request that draws a token draws a new one. -/
def World.isNew (w : World) (code : String) : Bool :=
  (w.issued code).isNone && code ≠ "" && trimSpace code = code

def serve (w : World) : Input → Answer × World
  | .wait seconds =>
    (.done, { w with accounts := { w.accounts with now := w.accounts.now + seconds } })
  | .setBanned userId banned =>
    (.done, { w with accounts := { w.accounts with
      users := w.accounts.users.map fun u => if u.id = userId then { u with banned } else u } })
  | .sendEmailVerify req drawn =>
    let served := sendEmailVerify lib cfg w.accounts req drawn
    (doneOf served.1, { w with accounts := served.2 })
  | .register req =>
    let served := register lib cfg w.accounts req
    (answerOf served.1, { w with accounts := served.2 })
  | .login req =>
    let served := login lib cfg w.accounts req
    (answerOf served.1, { w with accounts := served.2 })
  | .forget req =>
    let served := forget lib w.accounts req
    (doneOf served.1, { w with accounts := served.2 })
  | .tokenLogin n req =>
    if (w.pending n).isSome then (.done, w) else tokenLogin cfg w n req
  | .finishTokenLogin n session =>
    match w.pending n with
    | none => (.done, w)
    | some p => finishTokenLogin cfg w n p session
  | .getQuickLoginURL req => if w.isNew req.code then getQuickLoginURL cfg w req else (.done, w)
  | .loginWithMailLink req =>
    if w.isNew req.code then loginWithMailLink lib cfg w req else (.done, w)

def step (w : World) (i : Input) : World := (serve lib cfg w i).2

end

end ForestPanel.Logins
