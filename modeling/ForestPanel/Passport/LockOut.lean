import ForestPanel.Passport.LoginLaws

/-!
# The lock on passwords

A window of an e-mail starts with the first password for it that is compared and wrong. The
stored counter starts at 0, so it stays one behind the wrong passwords of the window: one more
password than the limit is compared before the lock holds.
-/
namespace ForestPanel.Logins

open Outcome Passport Transition

/-- The wrong passwords since the first one, which ended nothing before `endsAt`. -/
structure Window where
  failures : Nat
  /-- 0 when the window does not end. -/
  endsAt : Int
deriving DecidableEq, Repr

def Window.isOpen (now : Int) (window : Window) : Bool :=
  !(0 < window.endsAt && window.endsAt ≤ now)

structure Watched where
  world : World
  window : Option Window

def Watched.start : Watched := ⟨World.start, none⟩

def Watched.current (s : Watched) : Option Window :=
  s.window.filter (Window.isOpen s.world.accounts.now)

def Watched.failures (s : Watched) : Nat :=
  match s.current with
  | none => 0
  | some window => window.failures

section

variable (lib : Library) (cfg : Config)

/-- The answer when the comparison of the password comes out as `right`. -/
def loginIf (right : Bool) (w : Passport.World) (req : LoginRequest) : Except HTTPError AuthData :=
  (login { lib with verify := fun _ _ _ _ => right } cfg w req).1

/-- The password is compared: the answer depends on the outcome. -/
def compares (w : Passport.World) (req : LoginRequest) : Bool :=
  loginIf lib cfg true w req ≠ loginIf lib cfg false w req

def misses (w : Passport.World) (req : LoginRequest) : Bool :=
  compares lib cfg w req && (login lib cfg w req).1 = loginIf lib cfg false w req

def missed (email : String) (w : World) : Input → Bool
  | .login req => normalEmail lib req.email = email && misses lib cfg w.accounts req
  | _ => false

def Watched.miss (s : Watched) : Window :=
  match s.current with
  | none =>
    let ttl := cfg.passwordLimitExpireMin * 60
    ⟨1, if 0 < ttl then s.world.accounts.now + ttl else 0⟩
  | some window => { window with failures := window.failures + 1 }

def watch (email : String) (s : Watched) (i : Input) : Watched where
  world := step lib cfg s.world i
  window := if missed lib cfg email s.world i then some (s.miss cfg) else s.window

/-- The request is well-formed, and there is a user for it. -/
def Answerable (w : Passport.World) (req : LoginRequest) : Prop :=
  validateEmail lib (normalEmail lib req.email) = .ok () ∧
    8 ≤ (trimSpace req.password).utf8ByteSize ∧
    (w.findUserByEmail lib (normalEmail lib req.email)).isSome = true

/-- A lock after `limit` wrong passwords: until then the passwords of requests for the e-mail are
compared, from then on to the end of the window they are refused. -/
structure LocksAfter (limit : Int) (email : String) (s : Watched) (i : Input) : Prop where
  compared : ∀ req, i = .login req → normalEmail lib req.email = email →
    (compares lib cfg s.world.accounts req = true ↔
      Answerable lib s.world.accounts req ∧ s.failures < limit)
  refused : ∀ req, i = .login req → compares lib cfg s.world.accounts req = false →
    ∃ e, (serve lib cfg s.world i).1 = .refused e
  bounded : (watch lib cfg email s i).failures ≤ limit

/-- The condition on a step: no well-formed request for the e-mail comes when its counter is one
below the limit. -/
def Spared (email : String) (w : World) : Input → Prop
  | .login req => normalEmail lib req.email = email → Answerable lib w.accounts req →
      kvGet w.accounts.kv w.accounts.now (cacheKey .passwordErrorLimit email) ≠
        some (formatInt (cfg.passwordLimitCount - 1))
  | _ => True

variable {lib cfg} {w : Passport.World} {req : LoginRequest} {email : String} {s : Watched}

theorem loginChecks_ok : loginChecks lib cfg w req = .ok () ↔
    validateEmail lib (normalEmail lib req.email) = .ok () ∧
      8 ≤ (trimSpace req.password).utf8ByteSize ∧
      (cfg.passwordLimitEnabled = true →
        kvGetInt w.kv w.now (cacheKey .passwordErrorLimit (normalEmail lib req.email)) <
          cfg.passwordLimitCount) := by
  simp only [loginChecks, bind_eq_ok, ensure_eq_ok]
  constructor
  · rintro ⟨⟨⟩, valid, ⟨⟩, long, low⟩
    exact ⟨valid, long, low⟩
  · rintro ⟨valid, long, low⟩
    exact ⟨(), valid, (), long, low⟩

theorem loginUser_found {user : User}
    (found : w.findUserByEmail lib (normalEmail lib req.email) = some user) :
    loginUser lib w req =
      if lib.verify user.passwordAlgo user.passwordSalt (trimSpace req.password) user.password =
          true then
        if user.banned = 0 then .ok user else .error (failure "Your account has been suspended")
      else .error (failure "Incorrect email or password") := by
  unfold loginUser
  rw [found]
  change (ensure _ _ >>= fun _ => ensure _ _ >>= fun _ => pure user) = _
  unfold ensure
  split
  · split <;> rfl
  · rfl

theorem loginUser_missing (missing : w.findUserByEmail lib (normalEmail lib req.email) = none) :
    loginUser lib w req = .error (failure "Incorrect email or password") := by
  unfold loginUser
  rw [missing]
  rfl

theorem login_stopped {e : HTTPError} (stopped : loginChecks lib cfg w req = .error e) :
    login lib cfg w req = (.error e, w) := by
  unfold login
  rw [stopped]

theorem login_missing (passed : loginChecks lib cfg w req = .ok ())
    (missing : w.findUserByEmail lib (normalEmail lib req.email) = none) :
    login lib cfg w req = (.error (failure "Incorrect email or password"), w) := by
  unfold login
  rw [passed, loginUser_missing missing]
  unfold countPassword
  rw [missing]

theorem login_wrong {user : User} (passed : loginChecks lib cfg w req = .ok ())
    (found : w.findUserByEmail lib (normalEmail lib req.email) = some user)
    (wrong : lib.verify user.passwordAlgo user.passwordSalt (trimSpace req.password)
      user.password = false) :
    login lib cfg w req = (.error (failure "Incorrect email or password"),
      { w with kv :=
        if cfg.passwordLimitEnabled = true then
          (kvIncrWithBase w.kv w.now (cacheKey .passwordErrorLimit (normalEmail lib req.email))
            (cfg.passwordLimitExpireMin * 60) 0).2
        else w.kv }) := by
  unfold login
  rw [passed, loginUser_found found, wrong]
  unfold countPassword
  simp [found, wrong]

theorem login_right {user : User} (passed : loginChecks lib cfg w req = .ok ())
    (found : w.findUserByEmail lib (normalEmail lib req.email) = some user)
    (right : lib.verify user.passwordAlgo user.passwordSalt (trimSpace req.password)
      user.password = true) :
    (login lib cfg w req).1 ≠ .error (failure "Incorrect email or password") ∧
      (login lib cfg w req).2.kv = w.kv := by
  unfold login
  rw [passed, loginUser_found found, if_pos right]
  by_cases free : user.banned = 0
  · rw [if_pos free]
    unfold createAuthData
    dsimp only
    split
    · refine ⟨?_, rfl⟩
      simp [Passport.failure]
    · exact ⟨by rintro ⟨⟩, rfl⟩
  · rw [if_neg free]
    unfold countPassword
    simp only [found, right, Bool.true_eq_false, and_false, if_false]
    exact ⟨by decide, trivial⟩

theorem loginIf_stopped (right : Bool) {e : HTTPError} (stopped : loginChecks lib cfg w req = .error e) :
    loginIf lib cfg right w req = .error e :=
  congrArg Prod.fst
    (@login_stopped { lib with verify := fun _ _ _ _ => right } cfg w req e stopped)

theorem loginIf_missing (right : Bool) (passed : loginChecks lib cfg w req = .ok ())
    (missing : w.findUserByEmail lib (normalEmail lib req.email) = none) :
    loginIf lib cfg right w req = .error (Passport.failure "Incorrect email or password") :=
  congrArg Prod.fst
    (@login_missing { lib with verify := fun _ _ _ _ => right } cfg w req passed missing)

theorem loginIf_false {user : User} (passed : loginChecks lib cfg w req = .ok ())
    (found : w.findUserByEmail lib (normalEmail lib req.email) = some user) :
    loginIf lib cfg false w req = .error (Passport.failure "Incorrect email or password") :=
  congrArg Prod.fst
    (@login_wrong { lib with verify := fun _ _ _ _ => false } cfg w req user passed found rfl)

theorem loginIf_true {user : User} (passed : loginChecks lib cfg w req = .ok ())
    (found : w.findUserByEmail lib (normalEmail lib req.email) = some user) :
    loginIf lib cfg true w req ≠ .error (Passport.failure "Incorrect email or password") :=
  (@login_right { lib with verify := fun _ _ _ _ => true } cfg w req user passed found rfl).1

theorem compares_iff : compares lib cfg w req = true ↔ loginChecks lib cfg w req = .ok () ∧
    (w.findUserByEmail lib (normalEmail lib req.email)).isSome = true := by
  unfold compares
  rw [decide_eq_true_iff]
  cases checked : loginChecks lib cfg w req with
  | error e =>
    rw [loginIf_stopped true checked, loginIf_stopped false checked]
    simp
  | ok done =>
    cases found : w.findUserByEmail lib (normalEmail lib req.email) with
    | none =>
      rw [loginIf_missing true checked found, loginIf_missing false checked found]
      simp
    | some user =>
      rw [loginIf_false checked found]
      simpa using loginIf_true checked found

theorem misses_iff : misses lib cfg w req = true ↔ loginChecks lib cfg w req = .ok () ∧
    ∃ user, w.findUserByEmail lib (normalEmail lib req.email) = some user ∧
      lib.verify user.passwordAlgo user.passwordSalt (trimSpace req.password) user.password =
        false := by
  unfold misses
  rw [Bool.and_eq_true, compares_iff, decide_eq_true_iff, Option.isSome_iff_exists, and_assoc]
  apply and_congr_right
  intro checked
  constructor
  · rintro ⟨⟨user, found⟩, same⟩
    refine ⟨user, found, ?_⟩
    rw [loginIf_false checked found] at same
    by_contra right
    rw [Bool.not_eq_false] at right
    exact (login_right checked found right).1 same
  · rintro ⟨user, found, wrong⟩
    refine ⟨⟨user, found⟩, ?_⟩
    rw [login_wrong checked found wrong, loginIf_false checked found]

theorem login_kv (enabled : cfg.passwordLimitEnabled = true) : (login lib cfg w req).2.kv =
    if misses lib cfg w req = true then
      (kvIncrWithBase w.kv w.now (cacheKey .passwordErrorLimit (normalEmail lib req.email))
        (cfg.passwordLimitExpireMin * 60) 0).2
    else w.kv := by
  split
  next missed =>
    obtain ⟨checked, user, found, wrong⟩ := misses_iff.mp missed
    rw [login_wrong checked found wrong]
    exact if_pos enabled
  next passed =>
    rw [misses_iff] at passed
    cases checked : loginChecks lib cfg w req with
    | error e => rw [login_stopped checked]
    | ok done =>
      cases found : w.findUserByEmail lib (normalEmail lib req.email) with
      | none => rw [login_missing checked found]
      | some user =>
        apply (login_right checked found _).2
        by_contra wrong
        rw [Bool.not_eq_true] at wrong
        exact passed ⟨checked, user, found, wrong⟩

theorem login_refused (silent : compares lib cfg w req = false) :
    ∃ e, (login lib cfg w req).1 = .error e := by
  cases checked : loginChecks lib cfg w req with
  | error e => exact ⟨e, by rw [login_stopped checked]⟩
  | ok done =>
    cases found : w.findUserByEmail lib (normalEmail lib req.email) with
    | none => exact ⟨_, by rw [login_missing checked found]⟩
    | some user =>
      have compared : compares lib cfg w req = true := by
        rw [compares_iff, found]
        exact ⟨checked, rfl⟩
      rw [silent] at compared
      cases compared

/-- The row of a window: its counter is one behind. -/
def Window.row (window : Window) : KvRow := ⟨formatInt (window.failures - 1), window.endsAt⟩

theorem kv_issue {w : World} {key code : String} {userId ttl : Int}
    (other : key ≠ cacheKey .tempToken code) :
    (w.issue code userId ttl).accounts.kv key = w.accounts.kv key :=
  kvSet_of_ne other

theorem step_limit (w : World) (i : Input) (other : ∀ req, i ≠ .login req) :
    (step lib cfg w i).accounts.kv (cacheKey .passwordErrorLimit email) =
      w.accounts.kv (cacheKey .passwordErrorLimit email) := by
  have token : ∀ code, cacheKey .passwordErrorLimit email ≠ cacheKey .tempToken code :=
    fun _ => cacheKey_ne _ _ (by decide)
  have mail : ∀ e, cacheKey .passwordErrorLimit email ≠ cacheKey .lastSendMailLogin e :=
    fun _ => cacheKey_ne _ _ (by decide)
  cases i with
  | wait seconds => rfl
  | setBanned userId banned => rfl
  | sendEmailVerify req drawn =>
    simp only [step, serve]
    rcases @kv_sendEmailVerify lib cfg w.accounts req drawn (cacheKey .passwordErrorLimit email)
      (fun _ => cacheKey_ne _ _ (by decide)) (fun _ => cacheKey_ne _ _ (by decide)) with
      same | ⟨_, own, _⟩
    · exact same
    · exact absurd own (cacheKey_ne _ _ (by decide))
  | register req =>
    simp only [step, serve]
    rcases @kv_register lib cfg w.accounts req (cacheKey .passwordErrorLimit email)
      (fun _ => cacheKey_ne _ _ (by decide)) with same | ⟨_, own, _⟩
    · exact same
    · exact absurd own (cacheKey_ne _ _ (by decide))
  | login req => exact absurd rfl (other req)
  | forget req =>
    simp only [step, serve]
    rcases @kv_forget lib w.accounts req (cacheKey .passwordErrorLimit email) with
      same | ⟨_, own, _⟩ | ⟨_, own, _⟩
    · exact same
    · exact absurd own (cacheKey_ne _ _ (by decide))
    · exact absurd own (cacheKey_ne _ _ (by decide))
  | tokenLogin n req =>
    simp only [step, serve, tokenLogin]
    split
    · rfl
    split
    · rfl
    split
    · rfl
    split <;> rfl
  | finishTokenLogin n session =>
    simp only [step, serve]
    split
    · rfl
    next p _ =>
      unfold finishTokenLogin
      dsimp only
      split
      · rfl
      · unfold createAuthData
        dsimp only
        split
        · exact kvDelete_of_ne (token p.token)
        · exact kvDelete_of_ne (token p.token)
  | getQuickLoginURL req =>
    simp only [step, serve]
    split
    · unfold getQuickLoginURL
      split
      · rfl
      · exact kv_issue (token req.code)
    · rfl
  | loginWithMailLink req =>
    simp only [step, serve]
    split
    · unfold loginWithMailLink
      split
      · rfl
      split
      · rfl
      · dsimp only
        rw [kvSet_of_ne (mail _), kv_issue (token _)]
    · rfl

theorem now_le_step (w : World) (i : Input) :
    w.accounts.now ≤ (step lib cfg w i).accounts.now := by
  cases i with
  | wait seconds =>
    simp only [step, serve]
    omega
  | setBanned userId banned => exact Int.le_refl _
  | sendEmailVerify req drawn =>
    simp only [step, serve]
    exact (Passport.step_sendEmailVerify lib cfg w.accounts req drawn) ▸ Passport.now_le_step _ _
  | register req =>
    simp only [step, serve]
    exact (Passport.step_register lib cfg w.accounts req) ▸ Passport.now_le_step _ _
  | login req =>
    simp only [step, serve]
    unfold login
    split
    · exact Int.le_refl _
    split
    · exact Int.le_refl _
    · unfold createAuthData
      split <;> exact Int.le_refl _
  | forget req =>
    simp only [step, serve]
    exact (Passport.step_forget lib cfg w.accounts req) ▸ Passport.now_le_step _ _
  | tokenLogin n req =>
    simp only [step, serve, tokenLogin]
    split
    · exact Int.le_refl _
    split
    · exact Int.le_refl _
    split
    · exact Int.le_refl _
    split <;> exact Int.le_refl _
  | finishTokenLogin n session =>
    simp only [step, serve]
    split
    · exact Int.le_refl _
    · unfold finishTokenLogin
      dsimp only
      split
      · exact Int.le_refl _
      · unfold createAuthData
        dsimp only
        split <;> exact Int.le_refl _
  | getQuickLoginURL req =>
    simp only [step, serve]
    split
    · unfold getQuickLoginURL
      split <;> exact Int.le_refl _
    · exact Int.le_refl _
  | loginWithMailLink req =>
    simp only [step, serve]
    split
    · unfold loginWithMailLink
      split
      · exact Int.le_refl _
      split <;> exact Int.le_refl _
    · exact Int.le_refl _

theorem missed_login {w : World} {i : Input} (miss : missed lib cfg email w i = true) :
    ∃ req, i = .login req ∧ normalEmail lib req.email = email ∧
      misses lib cfg w.accounts req = true := by
  unfold missed at miss
  split at miss
  next req =>
    rw [Bool.and_eq_true, decide_eq_true_iff] at miss
    exact ⟨req, rfl, miss.1, miss.2⟩
  next => cases miss

theorem step_counter (enabled : cfg.passwordLimitEnabled = true) (w : World) (i : Input) :
    (step lib cfg w i).accounts.kv (cacheKey .passwordErrorLimit email) =
      if missed lib cfg email w i = true then
        (kvIncrWithBase w.accounts.kv w.accounts.now (cacheKey .passwordErrorLimit email)
          (cfg.passwordLimitExpireMin * 60) 0).2 (cacheKey .passwordErrorLimit email)
      else w.accounts.kv (cacheKey .passwordErrorLimit email) := by
  by_cases login : ∃ req, i = .login req
  · obtain ⟨req, rfl⟩ := login
    simp only [step, serve, login_kv enabled, missed, Bool.and_eq_true, decide_eq_true_iff]
    by_cases own : normalEmail lib req.email = email
    · rw [own]
      simp only [true_and]
      split <;> rfl
    · simp only [own, false_and, if_false]
      split
      · apply kvIncrWithBase_of_ne
        intro same
        exact own (cacheKey_inj same).2.symm
      · rfl
  · have quiet : ¬missed lib cfg email w i = true := by
      intro miss
      obtain ⟨req, named, -⟩ := missed_login miss
      exact login ⟨req, named⟩
    rw [if_neg quiet]
    exact step_limit w i fun req named => login ⟨req, named⟩

/-- The counter stands for the window, up to one wrong password more than the limit. -/
structure Kept (cfg : Config) (email : String) (s : Watched) : Prop where
  row : s.world.accounts.kv (cacheKey .passwordErrorLimit email) = s.window.map Window.row
  begun : ∀ window, s.window = some window → 1 ≤ window.failures
  bounded : s.failures ≤ cfg.passwordLimitCount + 1

theorem Kept.start (positive : 0 < cfg.passwordLimitCount) : Kept cfg email Watched.start where
  row := rfl
  begun := by rintro _ ⟨⟩
  bounded := by
    change (0 : Int) ≤ _
    omega

theorem current_eq_some {window : Window} : s.current = some window ↔
    s.window = some window ∧ window.isOpen s.world.accounts.now = true :=
  Option.filter_eq_some_iff

theorem Kept.read (kept : Kept cfg email s) :
    kvGet s.world.accounts.kv s.world.accounts.now (cacheKey .passwordErrorLimit email) =
      s.current.map fun window => formatInt (window.failures - 1) := by
  unfold kvGet Watched.current
  rw [kept.row]
  cases s.window with
  | none => rfl
  | some window =>
    rw [Option.map_some, Option.filter_some]
    have same : window.row.isLive s.world.accounts.now = window.isOpen s.world.accounts.now := rfl
    dsimp only
    rw [same]
    split <;> rfl

theorem failures_of_current {window : Window} (current : s.current = some window) :
    s.failures = window.failures := by
  unfold Watched.failures
  rw [current]

theorem Kept.below (kept : Kept cfg email s) (positive : 0 < cfg.passwordLimitCount)
    (fits : Decimal.Fits cfg.passwordLimitCount) :
    kvGetInt s.world.accounts.kv s.world.accounts.now (cacheKey .passwordErrorLimit email) <
      cfg.passwordLimitCount ↔ s.failures < cfg.passwordLimitCount + 1 := by
  unfold kvGetInt
  rw [kept.read]
  cases current : s.current with
  | none =>
    have none : s.failures = 0 := by
      unfold Watched.failures
      rw [current]
    rw [none]
    dsimp only [Option.map_none]
    omega
  | some window =>
    have count := failures_of_current current
    have bounded := kept.bounded
    have begun := kept.begun window (current_eq_some.mp current).1
    have small : Decimal.Fits ((window.failures : Int) - 1) := by
      unfold Decimal.Fits at fits ⊢
      omega
    dsimp only [Option.map_some]
    rw [parseInt_formatInt small, Option.getD_some]
    omega

theorem failures_watch (s : Watched) (i : Input) : (watch lib cfg email s i).failures ≤
    s.failures + if missed lib cfg email s.world i = true then 1 else 0 := by
  have later := @now_le_step lib cfg s.world i
  cases after : (watch lib cfg email s i).current with
  | none =>
    unfold Watched.failures
    rw [after]
    exact Nat.zero_le _
  | some window =>
    rw [failures_of_current after]
    obtain ⟨there, opened⟩ := current_eq_some.mp after
    unfold watch at there
    dsimp only at there
    split at there
    next miss =>
      obtain rfl := Option.some.inj there
      rw [if_pos miss]
      unfold Watched.miss Watched.failures
      split <;> exact Nat.le_refl _
    next quiet =>
      rw [if_neg quiet]
      have before : s.current = some window := by
        refine current_eq_some.mpr ⟨there, ?_⟩
        unfold watch Window.isOpen at opened
        unfold Window.isOpen
        dsimp only at opened
        rw [Bool.not_eq_true', Bool.and_eq_false_iff, decide_eq_false_iff_not,
          decide_eq_false_iff_not] at opened ⊢
        omega
      rw [failures_of_current before]
      exact Nat.le_refl _

theorem Kept.miss (kept : Kept cfg email s) (fits : Decimal.Fits cfg.passwordLimitCount)
    (key : String) (own : key = cacheKey .passwordErrorLimit email) :
    (kvIncrWithBase s.world.accounts.kv s.world.accounts.now key
      (cfg.passwordLimitExpireMin * 60) 0).2 key = some (s.miss cfg).row := by
  have row := kept.row
  rw [← own] at row
  unfold kvIncrWithBase
  rw [row]
  have fresh : s.current = none →
      kvSet s.world.accounts.kv s.world.accounts.now key (formatInt 0)
        (cfg.passwordLimitExpireMin * 60) key = some (s.miss cfg).row := by
    intro none
    unfold kvSet Watched.miss
    rw [none, Function.update_self]
    rfl
  cases there : s.window with
  | none =>
    apply fresh
    unfold Watched.current
    rw [there]
    rfl
  | some window =>
    dsimp only [Option.map_some]
    have same : window.row.isLive s.world.accounts.now = window.isOpen s.world.accounts.now := rfl
    rw [same]
    split
    next opened =>
      have current : s.current = some window := current_eq_some.mpr ⟨there, opened⟩
      have begun := kept.begun window there
      have bounded := kept.bounded
      rw [failures_of_current current] at bounded
      have small : Decimal.Fits ((window.failures : Int) - 1) := by
        unfold Decimal.Fits at fits ⊢
        omega
      have read : (parseInt (trimSpace window.row.value)).getD 0 = (window.failures : Int) - 1 := by
        have value : window.row.value = formatInt (window.failures - 1) := rfl
        rw [value, trimSpace_formatInt, parseInt_formatInt small, Option.getD_some]
      have raised : (window.failures : Int) - 1 + 1 = ((window.failures + 1 : Nat) : Int) - 1 := by
        omega
      dsimp only
      rw [Function.update_self, read, raised]
      unfold Watched.miss
      rw [current]
      rfl
    next ended =>
      apply fresh
      unfold Watched.current
      rw [there, Option.filter_some, if_neg ended]

theorem compares_iff_answerable (enabled : cfg.passwordLimitEnabled = true) :
    compares lib cfg w req = true ↔ Answerable lib w req ∧
      kvGetInt w.kv w.now (cacheKey .passwordErrorLimit (normalEmail lib req.email)) <
        cfg.passwordLimitCount := by
  rw [compares_iff, loginChecks_ok]
  unfold Answerable
  constructor
  · rintro ⟨⟨valid, long, low⟩, user⟩
    exact ⟨⟨valid, long, user⟩, low enabled⟩
  · rintro ⟨⟨valid, long, user⟩, low⟩
    exact ⟨⟨valid, long, fun _ => low⟩, user⟩

theorem misses_compares (miss : misses lib cfg w req = true) : compares lib cfg w req = true :=
  (Bool.and_eq_true_iff.mp miss).1

theorem Kept.locks (kept : Kept cfg email s) (enabled : cfg.passwordLimitEnabled = true)
    (positive : 0 < cfg.passwordLimitCount) (fits : Decimal.Fits cfg.passwordLimitCount)
    (i : Input) : LocksAfter lib cfg (cfg.passwordLimitCount + 1) email s i where
  compared := by
    rintro req - own
    rw [compares_iff_answerable enabled, own, kept.below positive fits]
  refused := by
    rintro req rfl silent
    obtain ⟨e, refused⟩ := login_refused silent
    refine ⟨e, ?_⟩
    simp only [serve, refused, answerOf]
  bounded := by
    have raised := @failures_watch lib cfg email s i
    have before := kept.bounded
    split at raised
    next miss =>
      obtain ⟨req, -, own, wrong⟩ := missed_login miss
      have below := (compares_iff_answerable enabled).mp (misses_compares wrong)
      rw [own, kept.below positive fits] at below
      omega
    next => omega

theorem Kept.step (kept : Kept cfg email s) (enabled : cfg.passwordLimitEnabled = true)
    (positive : 0 < cfg.passwordLimitCount) (fits : Decimal.Fits cfg.passwordLimitCount)
    (i : Input) : Kept cfg email (watch lib cfg email s i) where
  row := by
    unfold watch
    dsimp only
    rw [step_counter enabled]
    split
    · exact kept.miss fits _ rfl
    · exact kept.row
  begun := by
    intro window there
    unfold watch at there
    dsimp only at there
    split at there
    · obtain rfl := Option.some.inj there
      unfold Watched.miss
      split
      · exact Nat.le_refl _
      · exact Nat.le_add_left _ _
    · exact kept.begun window there
  bounded := (kept.locks enabled positive fits i).bounded

theorem Kept.locks_iff (kept : Kept cfg email s) (enabled : cfg.passwordLimitEnabled = true)
    (positive : 0 < cfg.passwordLimitCount) (fits : Decimal.Fits cfg.passwordLimitCount)
    (within : s.failures ≤ cfg.passwordLimitCount) (i : Input) :
    LocksAfter lib cfg cfg.passwordLimitCount email s i ↔ Spared lib cfg email s.world i := by
  have late := @Kept.locks lib cfg email s kept enabled positive fits i
  -- the counter shows the limit exactly when it is one behind
  have full : ∀ window, s.current = some window →
      (kvGet s.world.accounts.kv s.world.accounts.now (cacheKey .passwordErrorLimit email) =
        some (formatInt (cfg.passwordLimitCount - 1)) ↔ s.failures = cfg.passwordLimitCount) := by
    intro window current
    rw [kept.read, current, Option.map_some, Option.some_inj, failures_of_current current]
    constructor
    · intro same
      have equal := Decimal.format_injective (String.ofList_injective same)
      omega
    · intro same
      rw [same]
  constructor
  · intro locks
    cases i with
    | login req =>
      intro own answerable shown
      cases current : s.current with
      | none =>
        rw [kept.read, current] at shown
        cases shown
      | some window =>
        have reached := (full window current).mp shown
        have compared := (late.compared req rfl own).mpr ⟨answerable, by omega⟩
        have below := ((locks.compared req rfl own).mp compared).2
        omega
    | _ => trivial
  · intro spared
    have sharp : ∀ req, i = .login req → normalEmail lib req.email = email →
        Answerable lib s.world.accounts req → s.failures < cfg.passwordLimitCount := by
      rintro req rfl own answerable
      by_contra reached
      cases current : s.current with
      | none =>
        unfold Watched.failures at reached
        rw [current] at reached
        dsimp only at reached
        omega
      | some window => exact spared own answerable ((full window current).mpr (by omega))
    constructor
    case compared =>
      intro req login own
      rw [late.compared req login own]
      constructor
      · rintro ⟨answerable, -⟩
        exact ⟨answerable, sharp req login own answerable⟩
      · rintro ⟨answerable, below⟩
        exact ⟨answerable, by omega⟩
    case refused => exact late.refused
    case bounded =>
      have raised := @failures_watch lib cfg email s i
      split at raised
      next miss =>
        obtain ⟨req, login, own, wrong⟩ := missed_login miss
        have answerable := ((compares_iff_answerable enabled).mp (misses_compares wrong)).1
        have below := sharp req login own answerable
        omega
      next => omega

end

section

variable (lib : Library) (cfg : Config)

/-- A run locks every time in time if and only if no well-formed request for the e-mail comes
when its counter is one below the limit. -/
theorem locks_in_time_iff (inputs : List Input) (email : String)
    (limit : cfg.passwordLimitEnabled = true ∧ 0 < cfg.passwordLimitCount ∧
      Decimal.Fits cfg.passwordLimitCount) :
    Along (watch lib cfg email) (LocksAfter lib cfg cfg.passwordLimitCount email) Watched.start
        inputs ↔
      Along (watch lib cfg email) (fun s i => Spared lib cfg email s.world i) Watched.start
        inputs := by
  obtain ⟨enabled, positive, fits⟩ := limit
  apply along_congr (I := fun s => Kept cfg email s ∧ s.failures ≤ cfg.passwordLimitCount)
  case initial =>
    refine ⟨Kept.start positive, ?_⟩
    change (0 : Int) ≤ _
    omega
  case same =>
    rintro s i ⟨kept, within⟩
    exact kept.locks_iff enabled positive fits within i
  case kept =>
    rintro s i ⟨kept, within⟩ locks
    exact ⟨kept.step enabled positive fits i, locks.bounded⟩

end

def strict : Config := { verifying with emailVerify := false, passwordLimitCount := 1 }

def ada : Input := .register ⟨"ada@example.com", "password", "", "", false, "10.0.0.1", false, "s"⟩

def guess (password : String) : Input := .login ⟨"ada@example.com", password, "s"⟩

/-- A second password is compared after a wrong one. -/
theorem second_password_compared :
    (tally (step sample strict) (missed sample strict "ada@example.com") World.start
        [ada, guess "12345678", guess "23456789"] = 2) ∧
      ¬∀ (lib : Library) (cfg : Config) (inputs : List Input) (email : String),
        cfg.passwordLimitEnabled = true → 0 < cfg.passwordLimitCount →
          Along (watch lib cfg email) (LocksAfter lib cfg cfg.passwordLimitCount email)
            Watched.start inputs := by
  refine ⟨by decide +kernel, fun locks => ?_⟩
  have run := locks sample strict [ada, guess "12345678", guess "23456789"] "ada@example.com" rfl
    (by decide)
  have bounded := run.2.2.1.bounded
  exact absurd bounded (by decide +kernel)

/-- A locked e-mail, which is free again after its window. -/
theorem one_password_a_window :
    Along (watch sample strict "ada@example.com")
        (LocksAfter sample strict strict.passwordLimitCount "ada@example.com") Watched.start
        [ada, guess "12345678", .wait 3600, guess "password"] ↔
      Along (watch sample strict "ada@example.com")
        (fun s i => Spared sample strict "ada@example.com" s.world i) Watched.start
        [ada, guess "12345678", .wait 3600, guess "password"] :=
  locks_in_time_iff sample strict _ "ada@example.com" ⟨rfl, by decide, by decide⟩

end ForestPanel.Logins
