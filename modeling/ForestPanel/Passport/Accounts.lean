import ForestPanel.Lib.Outcome
import ForestPanel.Passport.RuntimeStore

/-!
# Codes, registration and the reset of a password

A request answers and leaves a state behind, also when it fails half-way: what was written to
the key-value table before the error stays. Statements of the database succeed. What a request
gets from elsewhere comes with it: whether the captcha is right, whether the invite code is
found, and the random numbers.
-/
namespace ForestPanel.Passport

open Outcome

/-- `strings.ToLower`, `mail.ParseAddress`, and the hashing of passwords, which refuses those
that are too long. -/
structure Library where
  lower : String → String
  parseAddress : String → Option String
  hash : String → Option String
  verify : Option String → Option String → String → String → Bool

structure Config where
  appKey : String
  appURL : String
  recaptcha : Bool
  emailVerify : Bool
  emailWhitelistEnabled : Bool
  emailWhitelist : List String
  emailGmailLimitEnabled : Bool
  stopRegister : Bool
  inviteForce : Bool
  registerLimitByIP : Bool
  registerLimitCount : Int
  registerLimitExpireMin : Int
  passwordLimitEnabled : Bool
  passwordLimitCount : Int
  passwordLimitExpireMin : Int
  loginWithMailLink : Bool

structure HTTPError where
  status : Nat
  message : String
deriving DecidableEq, Repr

structure User where
  id : Int
  email : String
  password : String
  passwordAlgo : Option String
  passwordSalt : Option String
  banned : Int
deriving DecidableEq, Repr

/-- The user and the session that the signed token names. -/
structure AuthData where
  id : Int
  session : String
deriving DecidableEq, Repr

structure World where
  now : Int
  kv : Kv
  users : List User
  nextUser : Int
  sessions : List AuthData

def World.start : World where
  now := 0
  kv := fun _ => none
  users := []
  nextUser := 1
  sessions := []

section

variable (lib : Library) (cfg : Config)

def failure (message : String) : HTTPError := ⟨500, message⟩

/-- `strings.TrimSpace(strings.ToLower(email))`. -/
def normalEmail (email : String) : String := trimSpace (lib.lower email)

def validateEmail (email : String) : Except HTTPError Unit :=
  if trimSpace email = "" then .error (failure "Email can not be empty")
  else if lib.parseAddress email ≠ some email then .error (failure "Email format is incorrect")
  else .ok ()

def emailSuffixAllowed (email : String) (whitelist : List String) : Bool :=
  match email.toList.splitOn '@' with
  | [_, suffix] =>
    let suffix := lib.lower (trimSpace (String.ofList suffix))
    whitelist.any fun item => suffix = lib.lower (trimSpace item)
  | _ => false

def gmailAlias (email : String) : Bool :=
  match email.toList.splitOn '@' with
  | [name, suffix] =>
    lib.lower (String.ofList suffix) = "gmail.com" && (name.contains '.' || name.contains '+')
  | _ => false

def isSixDigitCode (code : String) : Bool :=
  code.utf8ByteSize = 6 && code.toList.all Char.isDigit

def randomDigits (drawn : Nat) : String :=
  let digits := Nat.toDigits 10 (drawn % 1000000)
  String.ofList (List.replicate (6 - digits.length) '0' ++ digits)

def World.findUserByEmail (w : World) (email : String) : Option User :=
  w.users.find? fun u => lib.lower u.email = normalEmail lib email

def World.emailExists (w : World) (email : String) : Bool := (w.findUserByEmail lib email).isSome

structure SendEmailVerifyRequest where
  email : String
  recaptcha : Bool
  isForget : Int
  hasIsForget : Bool
  ip : String

def sendChecks (w : World) (email : String) (req : SendEmailVerifyRequest) :
    Except HTTPError Unit := do
  ensure (cfg.recaptcha = true → req.recaptcha = true) (failure "Invalid code is incorrect")
  let registered := w.emailExists lib email
  let isPasswordRecovery := registered && (!req.hasIsForget || req.isForget = 1)
  ensure (isPasswordRecovery = true ∨ cfg.emailWhitelistEnabled = false ∨
      emailSuffixAllowed lib email cfg.emailWhitelist = true)
    (failure "Email suffix is not in the Whitelist")
  ensure (cfg.emailGmailLimitEnabled = false ∨ gmailAlias lib email = false)
    (failure "Gmail alias is not supported")
  ensure (¬(req.hasIsForget = true ∧ req.isForget = 0 ∧ registered = true))
    (failure "This email is registered")
  ensure (¬(req.hasIsForget = true ∧ req.isForget = 1 ∧ registered = false))
    (failure "This email is not registered in the system")
  ensure (kvGet w.kv w.now (cacheKey .lastSendEmailVerify email) = none)
    (failure "Email verification code has been sent, please request again later")

/-- The code is mailed, and stored for five minutes; for one minute no other is sent. -/
def storeCode (w : World) (email : String) (drawn : Nat) : World :=
  let kv := kvSet w.kv w.now (cacheKey .emailVerifyCode email) (randomDigits drawn) 300
  { w with kv := kvSet kv w.now (cacheKey .lastSendEmailVerify email) (formatInt w.now) 60 }

/-- The requests of an IP address in one minute, and the table with this one counted. -/
def countSend (w : World) (ip : String) : Int × Kv :=
  if ip ≠ "" then kvIncr w.kv w.now (cacheKey .sendVerifyRateLimitIP ip) 60 else (0, w.kv)

def sendEmailVerify (w : World) (req : SendEmailVerifyRequest) (drawn : Nat) :
    Except HTTPError Unit × World :=
  let email := normalEmail lib req.email
  match validateEmail lib email with
  | .error e => (.error e, w)
  | .ok () =>
    let attempt := (countSend w req.ip).1
    let w := { w with kv := (countSend w req.ip).2 }
    if 3 < attempt then (.error ⟨429, "Too many requests, please try again later."⟩, w)
    else
      match sendChecks lib cfg w email req with
      | .error e => (.error e, w)
      | .ok () => (.ok (), storeCode w email drawn)

structure RegisterRequest where
  email : String
  password : String
  inviteCode : String
  emailCode : String
  recaptcha : Bool
  ip : String
  /-- The invite code is found. -/
  invited : Bool
  session : String

/-- What is checked before the code of the e-mail. -/
def registerChecks (w : World) (req : RegisterRequest) : Except HTTPError Unit := do
  let email := normalEmail lib req.email
  validateEmail lib email
  ensure (8 ≤ (trimSpace req.password).utf8ByteSize)
    (failure "Password must be greater than 8 digits")
  ensure (cfg.registerLimitByIP = true ∧ req.ip ≠ "" →
      kvGetInt w.kv w.now (cacheKey .registerIPRateLimit req.ip) < cfg.registerLimitCount)
    (failure ("Register frequently, please try again after " ++
      formatInt cfg.registerLimitExpireMin ++ " minute"))
  ensure (cfg.recaptcha = true → req.recaptcha = true) (failure "Invalid code is incorrect")
  ensure (cfg.emailWhitelistEnabled = true → emailSuffixAllowed lib email cfg.emailWhitelist = true)
    (failure "Email suffix is not in the Whitelist")
  ensure (cfg.emailGmailLimitEnabled = true → gmailAlias lib email = false)
    (failure "Gmail alias is not supported")
  ensure (cfg.stopRegister = false) (failure "Registration has closed")
  ensure (cfg.inviteForce = true → trimSpace req.inviteCode ≠ "")
    (failure "You must use the invitation code to register")

def wrongCode : HTTPError := failure "Incorrect email verification code"

/-- The check of the code; nothing counts how often it fails. -/
def registerCode (w : World) (email emailCode : String) : Except HTTPError Unit :=
  if cfg.emailVerify = false then .ok ()
  else if emailCode = "" then .error (failure "Email verification code cannot be empty")
  else if isSixDigitCode emailCode = false then .error wrongCode
  else if kvGet w.kv w.now (cacheKey .emailVerifyCode email) = some emailCode then .ok ()
  else .error wrongCode

def createAuthData (w : World) (userId : Int) (session : String) :
    Except HTTPError AuthData × World :=
  if trimSpace cfg.appKey = "" then (.error (failure "APP_KEY is empty"), w)
  else (.ok ⟨userId, session⟩, { w with sessions := w.sessions ++ [⟨userId, session⟩] })

/-- What follows the commit of a registration: its code goes, its IP address counts. -/
def afterRegister (kv : Kv) (now : Int) (email ip : String) : Kv :=
  let kv := if cfg.emailVerify then kvDelete kv (cacheKey .emailVerifyCode email) else kv
  if cfg.registerLimitByIP = true ∧ ip ≠ "" then
    let key := cacheKey .registerIPRateLimit ip
    kvSet kv now key (formatInt (kvGetInt kv now key + 1)) (cfg.registerLimitExpireMin * 3600)
  else kv

def createAccount (w : World) (email : String) (req : RegisterRequest) :
    Except HTTPError AuthData × World :=
  if w.emailExists lib email then (.error (failure "Email already exists"), w)
  else if trimSpace req.inviteCode ≠ "" ∧ req.invited = false ∧ cfg.inviteForce = true then
    (.error (failure "Invalid invitation code"), w)
  else
    match lib.hash (trimSpace req.password) with
    | none => (.error (failure "hash password"), w)
    | some password =>
      let user : User := ⟨w.nextUser, email, password, none, none, 0⟩
      createAuthData cfg
        { w with
          kv := afterRegister cfg w.kv w.now email req.ip
          users := w.users ++ [user]
          nextUser := w.nextUser + 1 }
        user.id req.session

def register (w : World) (req : RegisterRequest) : Except HTTPError AuthData × World :=
  let email := normalEmail lib req.email
  match registerChecks lib cfg w req with
  | .error e => (.error e, w)
  | .ok () =>
    match registerCode cfg w email (trimSpace req.emailCode) with
    | .error e => (.error e, w)
    | .ok () => createAccount lib cfg w email req

structure ForgetRequest where
  email : String
  password : String
  emailCode : String

def forgetChecks (req : ForgetRequest) : Except HTTPError Unit := do
  validateEmail lib (normalEmail lib req.email)
  ensure (8 ≤ (trimSpace req.password).utf8ByteSize)
    (failure "Password must be greater than 8 digits")
  ensure (trimSpace req.emailCode ≠ "") (failure "Email verification code cannot be empty")
  ensure (isSixDigitCode (trimSpace req.emailCode) = true) wrongCode

/-- The new password is stored, the code goes, and every session of the user ends. -/
def resetPassword (w : World) (email : String) (userId : Int) (password : String) : World :=
  { w with
    kv := kvDelete w.kv (cacheKey .emailVerifyCode email)
    users := w.users.map fun u =>
      if u.id = userId then { u with password, passwordAlgo := none, passwordSalt := none } else u
    sessions := w.sessions.filter fun s => s.id ≠ userId }

def forget (w : World) (req : ForgetRequest) : Except HTTPError Unit × World :=
  let email := normalEmail lib req.email
  match forgetChecks lib req with
  | .error e => (.error e, w)
  | .ok () =>
    let forgetLimitKey := cacheKey .forgetRequestLimit email
    let forgetLimit := kvGetInt w.kv w.now forgetLimitKey
    if 3 ≤ forgetLimit then (.error (failure "Reset failed, Please try again later"), w)
    else if kvGet w.kv w.now (cacheKey .emailVerifyCode email) ≠ some (trimSpace req.emailCode) then
      (.error wrongCode,
        { w with kv := kvSet w.kv w.now forgetLimitKey (formatInt (forgetLimit + 1)) 300 })
    else
      match w.findUserByEmail lib email with
      | none => (.error (failure "This email is not registered in the system"), w)
      | some user =>
        match lib.hash (trimSpace req.password) with
        | none => (.error (failure "hash reset password"), w)
        | some password => (.ok (), resetPassword w email user.id password)

variable {lib cfg} {w : World}

theorem kv_sendEmailVerify (req : SendEmailVerifyRequest) (drawn : Nat) (key : String)
    (ip : ∀ ip, key ≠ cacheKey .sendVerifyRateLimitIP ip)
    (last : ∀ e, key ≠ cacheKey .lastSendEmailVerify e) :
    (sendEmailVerify lib cfg w req drawn).2.kv key = w.kv key ∨
      ∃ e, key = cacheKey .emailVerifyCode e ∧ (sendEmailVerify lib cfg w req drawn).2.kv key =
        some ⟨randomDigits drawn, w.now + 300⟩ := by
  have counted : (countSend w req.ip).2 key = w.kv key := by
    unfold countSend
    split
    · exact kvIncrWithBase_of_ne (ip req.ip)
    · rfl
  unfold sendEmailVerify
  dsimp only
  split
  · exact Or.inl rfl
  split
  · exact Or.inl counted
  split
  · exact Or.inl counted
  unfold storeCode
  dsimp only
  rw [kvSet_of_ne (last _)]
  by_cases own : key = cacheKey .emailVerifyCode (normalEmail lib req.email)
  · right
    refine ⟨_, own, ?_⟩
    rw [own, kvSet_self (by decide)]
  · left
    rw [kvSet_of_ne own]
    exact counted

theorem kv_register (req : RegisterRequest) (key : String)
    (ip : ∀ ip, key ≠ cacheKey .registerIPRateLimit ip) :
    (register lib cfg w req).2.kv key = w.kv key ∨
      ∃ e, key = cacheKey .emailVerifyCode e ∧ (register lib cfg w req).2.kv key = none := by
  have after : ∀ e, afterRegister cfg w.kv w.now e req.ip key = w.kv key ∨
      (key = cacheKey .emailVerifyCode e ∧ afterRegister cfg w.kv w.now e req.ip key = none) := by
    intro e
    have limit : ∀ kv : Kv, (if cfg.registerLimitByIP = true ∧ req.ip ≠ "" then
        kvSet kv w.now (cacheKey .registerIPRateLimit req.ip)
          (formatInt (kvGetInt kv w.now (cacheKey .registerIPRateLimit req.ip) + 1))
          (cfg.registerLimitExpireMin * 3600) else kv) key = kv key := by
      intro kv
      split
      · exact kvSet_of_ne (ip req.ip)
      · rfl
    unfold afterRegister
    dsimp only
    rw [limit]
    split
    · by_cases own : key = cacheKey .emailVerifyCode e
      · right
        rw [own]
        exact ⟨rfl, Function.update_self ..⟩
      · exact Or.inl (kvDelete_of_ne own)
    · exact Or.inl rfl
  unfold register
  dsimp only
  split
  · exact Or.inl rfl
  · split
    · exact Or.inl rfl
    · unfold createAccount
      split
      · exact Or.inl rfl
      · split
        · exact Or.inl rfl
        · split
          · exact Or.inl rfl
          · unfold createAuthData
            split
            · exact (after _).imp_right fun own => ⟨_, own⟩
            · exact (after _).imp_right fun own => ⟨_, own⟩

theorem kv_forget (req : ForgetRequest) (key : String) :
    (forget lib w req).2.kv key = w.kv key ∨
      (∃ e, key = cacheKey .emailVerifyCode e ∧ (forget lib w req).2.kv key = none) ∨
      ∃ e, key = cacheKey .forgetRequestLimit e ∧ kvGetInt w.kv w.now key < 3 ∧
        (forget lib w req).2.kv key =
          some ⟨formatInt (kvGetInt w.kv w.now key + 1), w.now + 300⟩ := by
  unfold forget
  dsimp only
  split
  · exact Or.inl rfl
  split
  · exact Or.inl rfl
  next few =>
    split
    next =>
      by_cases own : key = cacheKey .forgetRequestLimit (normalEmail lib req.email)
      · right
        right
        rw [own]
        exact ⟨_, rfl, by omega, kvSet_self (by decide)⟩
      · exact Or.inl (kvSet_of_ne own)
    next =>
      split
      · exact Or.inl rfl
      split
      · exact Or.inl rfl
      · unfold resetPassword
        dsimp only
        by_cases own : key = cacheKey .emailVerifyCode (normalEmail lib req.email)
        · right
          left
          rw [own]
          exact ⟨_, rfl, Function.update_self ..⟩
        · exact Or.inl (kvDelete_of_ne own)

theorem users_sendEmailVerify (req : SendEmailVerifyRequest) (drawn : Nat) :
    (sendEmailVerify lib cfg w req drawn).2.users = w.users ∧
      (sendEmailVerify lib cfg w req drawn).2.nextUser = w.nextUser := by
  unfold sendEmailVerify
  dsimp only
  split
  · exact ⟨rfl, rfl⟩
  split
  · exact ⟨rfl, rfl⟩
  split <;> exact ⟨rfl, rfl⟩

theorem users_register (req : RegisterRequest) :
    ((register lib cfg w req).2.users = w.users ∧
        (register lib cfg w req).2.nextUser = w.nextUser ∧
        ∀ data, (register lib cfg w req).1 ≠ .ok data) ∨
      ∃ email password, lib.hash (trimSpace req.password) = some password ∧
        (register lib cfg w req).2.users =
          w.users ++ [⟨w.nextUser, email, password, none, none, 0⟩] ∧
        (register lib cfg w req).2.nextUser = w.nextUser + 1 ∧
        ∀ data, (register lib cfg w req).1 = .ok data → data.id = w.nextUser := by
  unfold register
  dsimp only
  split
  · exact Or.inl ⟨rfl, rfl, nofun⟩
  split
  · exact Or.inl ⟨rfl, rfl, nofun⟩
  unfold createAccount
  split
  · exact Or.inl ⟨rfl, rfl, nofun⟩
  split
  · exact Or.inl ⟨rfl, rfl, nofun⟩
  split
  · exact Or.inl ⟨rfl, rfl, nofun⟩
  next password hashed =>
    right
    refine ⟨normalEmail lib req.email, password, hashed, ?_⟩
    unfold createAuthData
    split
    · exact ⟨rfl, rfl, nofun⟩
    · refine ⟨rfl, rfl, ?_⟩
      rintro data same
      cases same
      rfl

theorem users_forget (req : ForgetRequest) : ∃ f : User → User,
    (forget lib w req).2.users = w.users.map f ∧ (forget lib w req).2.nextUser = w.nextUser ∧
      ∀ u, (f u).id = u.id ∧ (f u).banned = u.banned := by
  have kept : ∃ f : User → User, w.users = w.users.map f ∧ w.nextUser = w.nextUser ∧
      ∀ u, (f u).id = u.id ∧ (f u).banned = u.banned :=
    ⟨id, (List.map_id _).symm, rfl, fun _ => ⟨rfl, rfl⟩⟩
  unfold forget
  dsimp only
  split
  · exact kept
  split
  · exact kept
  split
  · exact kept
  split
  · exact kept
  split
  · exact kept
  next user _ _ password _ =>
    refine ⟨_, rfl, rfl, fun u => ?_⟩
    split <;> exact ⟨rfl, rfl⟩

end

end ForestPanel.Passport
