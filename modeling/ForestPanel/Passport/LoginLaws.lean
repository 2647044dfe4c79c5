import ForestPanel.Passport.Guesses
import ForestPanel.Passport.Logins
import Mathlib.Data.List.Nodup

/-!
# Who gets credentials

While no link is returned by the request that mails it, and no two `TokenLogin` requests hold
one token at the same time, credentials go only to callers that present what they need, and a
token logs in once. Without either condition they do not.
-/
namespace ForestPanel.Logins

open Outcome Passport Transition

section

variable (lib : Library) (cfg : Config)

/-- The user whose authentication data or login link an answer holds. -/
def Answer.user : Answer → Option Int
  | .auth data => some data.id
  | .link userId _ => some userId
  | _ => none

/-- What a request presents for a user: a password, the one a new account gets, a token that was
made for the user, or a session that is there. -/
def Presents (w : World) (i : Input) (userId : Int) : Prop :=
  match i with
  | .login req => ∃ u ∈ w.accounts.users, u.id = userId ∧
      lib.verify u.passwordAlgo u.passwordSalt (trimSpace req.password) u.password = true
  | .register req => ∃ u ∈ (step lib cfg w i).accounts.users, u.id = userId ∧
      lib.hash (trimSpace req.password) = some u.password
  | .finishTokenLogin n _ => ∃ p, w.pending n = some p ∧ w.issued p.token = some userId
  | .getQuickLoginURL req => ∃ data ∈ w.accounts.sessions,
      req.authData = some data ∧ data.id = userId
  | _ => False

/-- Who gets credentials presents something for it. -/
def Entitled (w : World) (i : Input) : Prop :=
  ∀ userId, (serve lib cfg w i).1.user = some userId → Presents lib cfg w i userId

def Unbanned (w : World) (i : Input) : Prop :=
  ∀ data, (serve lib cfg w i).1 = .auth data →
    ∀ u ∈ (step lib cfg w i).accounts.users, u.id = data.id → u.banned = 0

def logsIn (token : String) (w : World) (i : Input) : Bool :=
  match i with
  | .finishTokenLogin n _ =>
    (w.pending n).any (fun p => p.token = token) && (serve lib cfg w i).1.user.isSome
  | _ => false

/-- The condition on a step: a mailed link is not returned, as the method is off or finds no
user, and no other request has read the token that one reads. -/
def Proper (w : World) : Input → Prop
  | .loginWithMailLink req => mailLinkChecks lib cfg w.accounts req = .ok () →
      w.accounts.findUserByEmail lib (normalEmail lib req.email) = none
  | .tokenLogin _ req => ∀ m p, w.pending m = some p → p.token ≠ trimSpace req.verify
  | _ => True

structure Sane (w : World) : Prop where
  distinct : (w.accounts.users.map User.id).Nodup
  numbered : ∀ u ∈ w.accounts.users, u.id < w.accounts.nextUser
  stored : ∀ token row, w.accounts.kv (cacheKey .tempToken token) = some row →
    ∃ userId, w.issued token = some userId ∧ row.value = formatInt userId
  read : ∀ n p, w.pending n = some p →
    ∃ userId, w.issued p.token = some userId ∧ p.userIDValue = formatInt userId
  alone : ∀ n m p q, n ≠ m → w.pending n = some p → w.pending m = some q → p.token ≠ q.token

theorem sane_start : Sane World.start := ⟨List.nodup_nil, nofun, nofun, nofun, nofun⟩

variable {lib cfg} {w : World}

theorem login_result (w : Passport.World) (req : LoginRequest) :
    (login lib cfg w req).2.users = w.users ∧ (login lib cfg w req).2.nextUser = w.nextUser ∧
      (∀ token, (login lib cfg w req).2.kv (cacheKey .tempToken token) =
        w.kv (cacheKey .tempToken token)) ∧
      ∀ data, (login lib cfg w req).1 = .ok data → ∃ u ∈ w.users, u.id = data.id ∧
        lib.verify u.passwordAlgo u.passwordSalt (trimSpace req.password) u.password = true ∧
        u.banned = 0 := by
  unfold login
  split
  · exact ⟨rfl, rfl, fun _ => rfl, by rintro _ ⟨⟩⟩
  split
  next =>
    refine ⟨rfl, rfl, ?_, by rintro _ ⟨⟩⟩
    intro token
    dsimp only
    unfold countPassword
    cases w.findUserByEmail lib (normalEmail lib req.email) with
    | none => rfl
    | some user =>
      dsimp only
      split
      · exact kvIncrWithBase_of_ne (cacheKey_ne _ _ (by decide))
      · rfl
  next user allowed =>
    simp only [loginUser, bind_eq_ok, require_eq_ok, ensure_eq_ok, pure_eq_ok] at allowed
    obtain ⟨found, there, -, verified, -, free, rfl⟩ := allowed
    unfold createAuthData
    split
    · exact ⟨rfl, rfl, fun _ => rfl, by rintro _ ⟨⟩⟩
    · refine ⟨rfl, rfl, fun _ => rfl, ?_⟩
      rintro data same
      cases same
      exact ⟨found, List.mem_of_find?_eq_some there, rfl, verified, free⟩

theorem tokenUser_ok {w : Passport.World} {userIDValue : String} {user : User}
    (found : tokenUser w userIDValue = .ok user) :
    parseInt userIDValue = some user.id ∧ user ∈ w.users ∧ user.banned = 0 := by
  simp only [tokenUser, bind_eq_ok, require_eq_ok, ensure_eq_ok, pure_eq_ok] at found
  obtain ⟨userID, parsed, u, there, -, free, rfl⟩ := found
  have named : u.id = userID := by simpa using List.find?_some there
  exact ⟨named ▸ parsed, List.mem_of_find?_eq_some there, free⟩

theorem parse_token {text : String} {userId named : Int} (written : text = formatInt userId)
    (parsed : parseInt text = some named) : named = userId := by
  rw [written, parseInt, formatInt, String.toList_ofList] at parsed
  exact Decimal.eq_of_parse_format parsed

section

variable (w : Passport.World) (token : String)

theorem tokens_sendEmailVerify (req : SendEmailVerifyRequest) (drawn : Nat) :
    (sendEmailVerify lib cfg w req drawn).2.kv (cacheKey .tempToken token) =
      w.kv (cacheKey .tempToken token) := by
  rcases @kv_sendEmailVerify lib cfg w req drawn (cacheKey .tempToken token)
    (fun _ => cacheKey_ne _ _ (by decide)) (fun _ => cacheKey_ne _ _ (by decide)) with
    same | ⟨_, own, _⟩
  · exact same
  · exact absurd own (cacheKey_ne _ _ (by decide))

theorem tokens_register (req : RegisterRequest) :
    (register lib cfg w req).2.kv (cacheKey .tempToken token) =
      w.kv (cacheKey .tempToken token) := by
  rcases @kv_register lib cfg w req (cacheKey .tempToken token)
    (fun _ => cacheKey_ne _ _ (by decide)) with same | ⟨_, own, _⟩
  · exact same
  · exact absurd own (cacheKey_ne _ _ (by decide))

theorem tokens_forget (req : ForgetRequest) :
    (forget lib w req).2.kv (cacheKey .tempToken token) = w.kv (cacheKey .tempToken token) := by
  rcases @kv_forget lib w req (cacheKey .tempToken token) with
    same | ⟨_, own, _⟩ | ⟨_, own, _⟩
  · exact same
  · exact absurd own (cacheKey_ne _ _ (by decide))
  · exact absurd own (cacheKey_ne _ _ (by decide))

end

theorem Sane.accounts (sane : Sane w) {a : Passport.World} (distinct : (a.users.map User.id).Nodup)
    (numbered : ∀ u ∈ a.users, u.id < a.nextUser)
    (tokens : ∀ token row, a.kv (cacheKey .tempToken token) = some row →
      w.accounts.kv (cacheKey .tempToken token) = some row) :
    Sane { w with accounts := a } where
  distinct := distinct
  numbered := numbered
  stored token row there := sane.stored token row (tokens token row there)
  read := sane.read
  alone := sane.alone

theorem Sane.sendEmailVerify (sane : Sane w) (req : SendEmailVerifyRequest) (drawn : Nat) :
    Sane { w with accounts := (sendEmailVerify lib cfg w.accounts req drawn).2 } := by
  obtain ⟨users, number⟩ := @users_sendEmailVerify lib cfg w.accounts req drawn
  apply sane.accounts
  case distinct => rw [users]; exact sane.distinct
  case numbered => rw [users, number]; exact sane.numbered
  case tokens => exact fun token row there => (tokens_sendEmailVerify _ token req drawn) ▸ there

theorem Sane.register (sane : Sane w) (req : RegisterRequest) :
    Sane { w with accounts := (register lib cfg w.accounts req).2 } := by
  apply sane.accounts
  case distinct =>
    rcases @users_register lib cfg w.accounts req with
      ⟨users, -, -⟩ | ⟨email, password, -, users, -, -⟩
    · rw [users]
      exact sane.distinct
    · rw [users, List.map_append, List.nodup_append]
      refine ⟨sane.distinct, List.nodup_singleton _, ?_⟩
      rintro a before b added rfl
      obtain ⟨u, member, rfl⟩ := List.mem_map.mp before
      have below := sane.numbered u member
      rw [List.map_singleton, List.mem_singleton] at added
      dsimp only at added
      omega
  case numbered =>
    rcases @users_register lib cfg w.accounts req with
      ⟨users, number, -⟩ | ⟨email, password, -, users, number, -⟩
    · rw [users, number]
      exact sane.numbered
    · rw [users, number]
      intro u member
      rcases List.mem_append.mp member with before | added
      · have below := sane.numbered u before
        omega
      · rw [List.mem_singleton.mp added]
        dsimp only
        omega
  case tokens => exact fun token row there => (tokens_register _ token req) ▸ there

theorem Sane.forget (sane : Sane w) (req : ForgetRequest) :
    Sane { w with accounts := (forget lib w.accounts req).2 } := by
  obtain ⟨f, users, number, kept⟩ := @users_forget lib w.accounts req
  apply sane.accounts
  case distinct =>
    rw [users, List.map_map]
    have same : User.id ∘ f = User.id := funext fun u => (kept u).1
    rw [same]
    exact sane.distinct
  case numbered =>
    rw [users, number]
    intro u member
    obtain ⟨old, listed, rfl⟩ := List.mem_map.mp member
    rw [(kept old).1]
    exact sane.numbered old listed
  case tokens => exact fun token row there => (tokens_forget _ token req) ▸ there

theorem Sane.login (sane : Sane w) (req : LoginRequest) :
    Sane { w with accounts := (login lib cfg w.accounts req).2 } := by
  obtain ⟨users, number, kv, -⟩ := @login_result lib cfg w.accounts req
  apply sane.accounts
  case distinct => rw [users]; exact sane.distinct
  case numbered => rw [users, number]; exact sane.numbered
  case tokens => exact fun token row there => kv token ▸ there

theorem Sane.setBanned (sane : Sane w) (userId banned : Int) :
    Sane (step lib cfg w (.setBanned userId banned)) := by
  have kept : ∀ u : User, (if u.id = userId then { u with banned } else u).id = u.id := by
    intro u
    split <;> rfl
  apply sane.accounts
  case distinct =>
    rw [List.map_map]
    have same : (User.id ∘ fun u : User => if u.id = userId then { u with banned } else u) =
        User.id := funext kept
    rw [same]
    exact sane.distinct
  case numbered =>
    intro u member
    obtain ⟨old, listed, rfl⟩ := List.mem_map.mp member
    rw [kept]
    exact sane.numbered old listed
  case tokens => exact fun _ _ there => there

theorem Sane.tokenLogin (sane : Sane w) (n : Nat) (req : TokenLoginRequest)
    (alone : ∀ m p, w.pending m = some p → p.token ≠ trimSpace req.verify) :
    Sane (tokenLogin cfg w n req).2 := by
  unfold Logins.tokenLogin
  dsimp only
  split
  · exact sane
  split
  · exact sane
  split
  · exact sane
  next userIDValue found =>
    obtain ⟨row, there, -, rfl⟩ := kvGet_eq_some.mp found
    have added : ∀ m p, Function.update w.pending n (some ⟨trimSpace req.verify, row.value⟩) m =
        some p → (m = n ∧ p = ⟨trimSpace req.verify, row.value⟩) ∨ (m ≠ n ∧ w.pending m = some p) := by
      intro m p there
      rw [Function.update_apply] at there
      split at there
      next same => exact Or.inl ⟨same, (Option.some.inj there).symm⟩
      next other => exact Or.inr ⟨other, there⟩
    constructor
    case distinct => exact sane.distinct
    case numbered => exact sane.numbered
    case stored => exact sane.stored
    case read =>
      intro m p there'
      rcases added m p there' with ⟨-, rfl⟩ | ⟨-, before⟩
      · exact sane.stored _ row there
      · exact sane.read m p before
    case alone =>
      intro m k p q different first second
      rcases added m p first with ⟨here, rfl⟩ | ⟨-, before⟩
      · rcases added k q second with ⟨here', rfl⟩ | ⟨-, before'⟩
        · exact absurd (here.trans here'.symm) different
        · exact (alone k q before').symm
      · rcases added k q second with ⟨-, rfl⟩ | ⟨-, before'⟩
        · exact alone m p before
        · exact sane.alone m k p q different before before'

theorem finishTokenLogin_result (w : World) (n : Nat) (p : Pending) (session : String) :
    (finishTokenLogin cfg w n p session).2.pending = Function.update w.pending n none ∧
      (finishTokenLogin cfg w n p session).2.issued = w.issued ∧
      (finishTokenLogin cfg w n p session).2.accounts.users = w.accounts.users ∧
      (finishTokenLogin cfg w n p session).2.accounts.nextUser = w.accounts.nextUser ∧
      ((finishTokenLogin cfg w n p session).2.accounts.kv = w.accounts.kv ∧
          (finishTokenLogin cfg w n p session).1.user = none ∨
        (finishTokenLogin cfg w n p session).2.accounts.kv =
          kvDelete w.accounts.kv (cacheKey .tempToken p.token) ∧
          ∀ userId, (finishTokenLogin cfg w n p session).1.user = some userId →
            parseInt p.userIDValue = some userId ∧
              ∃ u ∈ w.accounts.users, u.id = userId ∧ u.banned = 0) := by
  unfold finishTokenLogin
  dsimp only
  split
  · exact ⟨rfl, rfl, rfl, rfl, Or.inl ⟨rfl, rfl⟩⟩
  next user found =>
    obtain ⟨parsed, member, free⟩ := tokenUser_ok found
    unfold createAuthData
    split
    · exact ⟨rfl, rfl, rfl, rfl, Or.inr ⟨rfl, nofun⟩⟩
    · refine ⟨rfl, rfl, rfl, rfl, Or.inr ⟨rfl, ?_⟩⟩
      rintro userId same
      cases same
      exact ⟨parsed, user, member, rfl, free⟩

theorem Sane.finishTokenLogin (sane : Sane w) (n : Nat) (p : Pending) (session : String) :
    Sane (finishTokenLogin cfg w n p session).2 := by
  obtain ⟨pending, issued, users, number, kv⟩ := @finishTokenLogin_result cfg w n p session
  have fewer : ∀ m q, (Logins.finishTokenLogin cfg w n p session).2.pending m = some q →
      w.pending m = some q := by
    intro m q there
    rw [pending, Function.update_apply] at there
    split at there
    · cases there
    · exact there
  constructor
  case distinct => rw [users]; exact sane.distinct
  case numbered => rw [users, number]; exact sane.numbered
  case stored =>
    intro token row there
    rw [issued]
    rcases kv with ⟨same, -⟩ | ⟨deleted, -⟩
    · exact sane.stored token row (same ▸ there)
    · rw [deleted, kvDelete, Function.update_apply] at there
      split at there
      · cases there
      · exact sane.stored token row there
  case read =>
    intro m q there
    rw [issued]
    exact sane.read m q (fewer m q there)
  case alone =>
    intro m k q r different first second
    exact sane.alone m k q r different (fewer m q first) (fewer k r second)

theorem Sane.issue (sane : Sane w) {code : String} (new : w.isNew code = true) (userId ttl : Int) :
    Sane (w.issue code userId ttl) := by
  have unknown : w.issued code = none := by
    unfold World.isNew at new
    rw [Bool.and_eq_true, Bool.and_eq_true] at new
    exact Option.isNone_iff_eq_none.mp new.1.1
  have before : ∀ token id, w.issued token = some id →
      Function.update w.issued code (some userId) token = some id := by
    intro token id old
    rw [Function.update_apply, if_neg]
    · exact old
    · rintro rfl
      rw [unknown] at old
      cases old
  constructor
  case distinct => exact sane.distinct
  case numbered => exact sane.numbered
  case alone => exact sane.alone
  case read =>
    intro n p there
    obtain ⟨id, old, written⟩ := sane.read n p there
    exact ⟨id, before p.token id old, written⟩
  case stored =>
    intro token row there
    dsimp only [World.issue] at there ⊢
    by_cases same : token = code
    · subst same
      rw [kvSet, Function.update_self] at there
      obtain rfl := Option.some.inj there
      exact ⟨userId, Function.update_self .., rfl⟩
    · rw [kvSet_of_ne fun equal => same (cacheKey_inj equal).2] at there
      obtain ⟨id, old, written⟩ := sane.stored token row there
      exact ⟨id, before token id old, written⟩

theorem sane_step (w : World) (i : Input) (sane : Sane w) (proper : Proper lib cfg w i) :
    Sane (step lib cfg w i) := by
  cases i with
  | wait seconds => exact sane.accounts sane.distinct sane.numbered fun _ _ there => there
  | setBanned userId banned => exact sane.setBanned userId banned
  | sendEmailVerify req drawn => exact sane.sendEmailVerify req drawn
  | register req => exact sane.register req
  | login req => exact sane.login req
  | forget req => exact sane.forget req
  | tokenLogin n req =>
    unfold step serve
    dsimp only
    split
    · exact sane
    · exact sane.tokenLogin n req proper
  | finishTokenLogin n session =>
    unfold step serve
    dsimp only
    split
    · exact sane
    next p _ => exact sane.finishTokenLogin n p session
  | getQuickLoginURL req =>
    unfold step serve
    dsimp only
    split
    next new =>
      unfold getQuickLoginURL
      split
      · exact sane
      next user _ => exact sane.issue new user.id 60
    next => exact sane
  | loginWithMailLink req =>
    unfold step serve
    dsimp only
    split
    next =>
      unfold loginWithMailLink
      split
      · exact sane
      next passed =>
        rw [proper passed]
        exact sane
    next => exact sane

theorem entitled_step (w : World) (i : Input) (sane : Sane w) (proper : Proper lib cfg w i) :
    Entitled lib cfg w i := by
  intro userId given
  cases i with
  | wait seconds => cases given
  | setBanned userId banned => cases given
  | sendEmailVerify req drawn =>
    unfold serve doneOf at given
    dsimp only at given
    split at given <;> cases given
  | forget req =>
    unfold serve doneOf at given
    dsimp only at given
    split at given <;> cases given
  | register req =>
    unfold serve answerOf at given
    dsimp only at given
    split at given
    next data result =>
      cases given
      rcases @users_register lib cfg w.accounts req with
        ⟨-, -, refused⟩ | ⟨email, password, hashed, users, -, named⟩
      · exact absurd result (refused data)
      · let user : User := ⟨w.accounts.nextUser, email, password, none, none, 0⟩
        refine ⟨user, ?_, (named data result).symm, hashed⟩
        unfold step serve
        dsimp only
        rw [users]
        exact List.mem_append_right _ (List.mem_singleton_self _)
    next => cases given
  | login req =>
    unfold serve answerOf at given
    dsimp only at given
    split at given
    next data result =>
      cases given
      obtain ⟨-, -, -, found⟩ := @login_result lib cfg w.accounts req
      obtain ⟨u, member, named, verified, -⟩ := found data result
      exact ⟨u, member, named, verified⟩
    next => cases given
  | tokenLogin n req =>
    unfold serve tokenLogin at given
    dsimp only at given
    split at given
    · cases given
    split at given
    · cases given
    split at given
    · cases given
    split at given <;> cases given
  | finishTokenLogin n session =>
    unfold serve at given
    dsimp only at given
    split at given
    · cases given
    next p there =>
      obtain ⟨-, -, -, -, kv⟩ := @finishTokenLogin_result cfg w n p session
      rcases kv with ⟨-, refused⟩ | ⟨-, signed⟩
      · rw [refused] at given
        cases given
      · obtain ⟨parsed, -⟩ := signed userId given
        obtain ⟨owner, issued, written⟩ := sane.read n p there
        obtain rfl := parse_token written parsed
        exact ⟨p, there, issued⟩
  | getQuickLoginURL req =>
    unfold serve getQuickLoginURL at given
    dsimp only at given
    split at given
    · split at given
      · cases given
      next user found =>
        cases given
        unfold userFromAuthToken at found
        split at found
        · cases found
        next data sent =>
          split at found
          next valid =>
            have there := (Option.filter_eq_some_iff.mp found).1
            have named : user.id = data.id := by simpa using List.find?_some there
            exact ⟨data, valid.2, sent, named.symm⟩
          next => cases found
    · cases given
  | loginWithMailLink req =>
    unfold serve loginWithMailLink at given
    dsimp only at given
    split at given
    · split at given
      · cases given
      next passed =>
        rw [proper passed] at given
        cases given
    · cases given

theorem unbanned_step (w : World) (i : Input) (sane : Sane w) (proper : Proper lib cfg w i) :
    Unbanned lib cfg w i := by
  intro data given
  have single : ∀ u ∈ w.accounts.users, ∀ v ∈ w.accounts.users, v.id = u.id → v = u :=
    fun u there v there' same => List.inj_on_of_nodup_map sane.distinct there' there same
  cases i with
  | wait seconds => cases given
  | setBanned userId banned => cases given
  | sendEmailVerify req drawn =>
    unfold serve doneOf at given
    dsimp only at given
    split at given <;> cases given
  | forget req =>
    unfold serve doneOf at given
    dsimp only at given
    split at given <;> cases given
  | register req =>
    unfold serve answerOf at given
    dsimp only at given
    split at given
    next data result =>
      cases given
      rcases @users_register lib cfg w.accounts req with
        ⟨-, -, refused⟩ | ⟨email, password, -, users, -, named⟩
      · exact absurd result (refused data)
      · unfold step serve
        dsimp only
        rw [users]
        intro u member same
        rcases List.mem_append.mp member with before | added
        · have below := sane.numbered u before
          rw [same, named data result] at below
          omega
        · rw [List.mem_singleton.mp added]
    next => cases given
  | login req =>
    unfold serve answerOf at given
    dsimp only at given
    split at given
    next data result =>
      cases given
      obtain ⟨users, -, -, found⟩ := @login_result lib cfg w.accounts req
      obtain ⟨v, there, named, -, free⟩ := found data result
      unfold step serve
      dsimp only
      rw [users]
      intro u member same
      rw [single v there u member (same.trans named.symm)]
      exact free
    next => cases given
  | finishTokenLogin n session =>
    unfold step
    unfold serve at given ⊢
    dsimp only at given ⊢
    split at given
    · cases given
    next p there =>
      obtain ⟨-, -, users, -, kv⟩ := @finishTokenLogin_result cfg w n p session
      rw [users]
      rcases kv with ⟨-, refused⟩ | ⟨-, signed⟩
      · rw [given] at refused
        cases refused
      · obtain ⟨-, v, listed, named, free⟩ := signed data.id (by rw [given]; rfl)
        intro u member same
        rw [single v listed u member (same.trans named.symm)]
        exact free
  | tokenLogin n req =>
    have nothing : (serve lib cfg w (.tokenLogin n req)).1.user ≠ none := by rw [given]; nofun
    exact absurd (Option.eq_none_iff_forall_ne_some.mpr fun userId given =>
      entitled_step w _ sane proper userId given) nothing
  | getQuickLoginURL req =>
    unfold serve getQuickLoginURL at given
    dsimp only at given
    split at given
    · split at given <;> cases given
    · cases given
  | loginWithMailLink req =>
    have nothing : (serve lib cfg w (.loginWithMailLink req)).1.user ≠ none := by rw [given]; nofun
    exact absurd (Option.eq_none_iff_forall_ne_some.mpr fun userId given =>
      entitled_step w _ sane proper userId given) nothing

def Spent (token : String) (w : World) : Prop :=
  (w.issued token).isSome = true ∧ w.accounts.kv (cacheKey .tempToken token) = none ∧
    ∀ n p, w.pending n = some p → p.token ≠ token

theorem spent_of_login (token : String) (w : World) (i : Input) (sane : Sane w)
    (logged : logsIn lib cfg token w i = true) : Spent token (step lib cfg w i) := by
  cases i with
  | finishTokenLogin n session =>
    unfold logsIn at logged
    dsimp only at logged
    rw [Bool.and_eq_true, Option.any_eq_true] at logged
    obtain ⟨⟨p, there, same⟩, some⟩ := logged
    rw [decide_eq_true_eq] at same
    subst same
    unfold step
    unfold serve at some ⊢
    dsimp only at some ⊢
    rw [there] at some ⊢
    dsimp only at some ⊢
    obtain ⟨pending, issued, -, -, kv⟩ := @finishTokenLogin_result cfg w n p session
    obtain ⟨owner, made, -⟩ := sane.read n p there
    refine ⟨?_, ?_, ?_⟩
    · rw [issued, made]
      rfl
    · rcases kv with ⟨-, refused⟩ | ⟨deleted, -⟩
      · rw [refused] at some
        cases some
      · rw [deleted]
        exact Function.update_self ..
    · intro m q there'
      rw [pending, Function.update_apply] at there'
      split at there'
      · cases there'
      next different => exact sane.alone m n q p different there' there
  | _ => cases logged

theorem Spent.not_login {token : String} (spent : Spent token w) (i : Input) :
    logsIn lib cfg token w i = false := by
  cases i with
  | finishTokenLogin n session =>
    unfold logsIn
    dsimp only
    rw [Bool.and_eq_false_iff]
    left
    cases there : w.pending n with
    | none => rfl
    | some p =>
      have other := spent.2.2 n p there
      simpa using other
  | _ => rfl

theorem Spent.accounts {token : String} (spent : Spent token w) {a : Passport.World}
    (same : a.kv (cacheKey .tempToken token) = w.accounts.kv (cacheKey .tempToken token)) :
    Spent token { w with accounts := a } :=
  ⟨spent.1, same.trans spent.2.1, spent.2.2⟩

theorem Spent.issue {token : String} (spent : Spent token w) {code : String}
    (new : w.isNew code = true) (userId ttl : Int) : Spent token (w.issue code userId ttl) := by
  have different : token ≠ code := by
    rintro rfl
    have made := spent.1
    unfold World.isNew at new
    rw [Bool.and_eq_true, Bool.and_eq_true] at new
    rw [Option.isNone_iff_eq_none.mp new.1.1] at made
    cases made
  refine ⟨?_, ?_, spent.2.2⟩
  · dsimp only [World.issue]
    rw [Function.update_of_ne different]
    exact spent.1
  · dsimp only [World.issue]
    rw [kvSet_of_ne fun equal => different (cacheKey_inj equal).2]
    exact spent.2.1

theorem Spent.step {token : String} (spent : Spent token w) (i : Input) :
    Spent token (step lib cfg w i) := by
  cases i with
  | wait seconds => exact spent.accounts rfl
  | setBanned userId banned => exact spent.accounts rfl
  | sendEmailVerify req drawn => exact spent.accounts (tokens_sendEmailVerify _ token req drawn)
  | register req => exact spent.accounts (tokens_register _ token req)
  | forget req => exact spent.accounts (tokens_forget _ token req)
  | login req =>
    exact spent.accounts ((@login_result lib cfg w.accounts req).2.2.1 token)
  | tokenLogin n req =>
    unfold Logins.step serve
    dsimp only
    split
    · exact spent
    unfold tokenLogin
    dsimp only
    split
    · exact spent
    split
    · exact spent
    split
    · exact spent
    next userIDValue found =>
      refine ⟨spent.1, spent.2.1, ?_⟩
      intro m p there
      dsimp only at there
      rw [Function.update_apply] at there
      split at there
      · obtain rfl := Option.some.inj there
        rintro rfl
        obtain ⟨row, stored, -⟩ := kvGet_eq_some.mp found
        rw [spent.2.1] at stored
        cases stored
      · exact spent.2.2 m p there
  | finishTokenLogin n session =>
    unfold Logins.step serve
    dsimp only
    split
    · exact spent
    next p there =>
      obtain ⟨pending, issued, -, -, kv⟩ := @finishTokenLogin_result cfg w n p session
      refine ⟨issued ▸ spent.1, ?_, ?_⟩
      · rcases kv with ⟨same, -⟩ | ⟨deleted, -⟩
        · rw [same]
          exact spent.2.1
        · rw [deleted, kvDelete, Function.update_apply]
          split
          · rfl
          · exact spent.2.1
      · intro m q there'
        rw [pending, Function.update_apply] at there'
        split at there'
        · cases there'
        · exact spent.2.2 m q there'
  | getQuickLoginURL req =>
    unfold Logins.step serve
    dsimp only
    split
    next new =>
      unfold getQuickLoginURL
      split
      · exact spent
      next user _ => exact spent.issue new user.id 60
    next => exact spent
  | loginWithMailLink req =>
    unfold Logins.step serve
    dsimp only
    split
    next new =>
      unfold loginWithMailLink
      split
      · exact spent
      split
      · exact spent
      next user _ =>
        have other : cacheKey .tempToken token ≠
            cacheKey .lastSendMailLogin (normalEmail lib req.email) := cacheKey_ne _ _ (by decide)
        have kept := spent.issue new user.id 300
        refine ⟨kept.1, ?_, kept.2.2⟩
        dsimp only
        rw [kvSet_of_ne other]
        exact kept.2.1
    next => exact spent

end

/-- In a run whose steps are proper, callers get credentials for what they present, a token logs
in at most once, and nobody who is banned gets authentication data. -/
theorem proper_logins_guarded (lib : Library) (cfg : Config) (inputs : List Input)
    (proper : Along (step lib cfg) (Proper lib cfg) World.start inputs) :
    Along (step lib cfg) (Entitled lib cfg) World.start inputs ∧
      (∀ token, tally (step lib cfg) (logsIn lib cfg token) World.start inputs ≤ 1) ∧
      Along (step lib cfg) (Unbanned lib cfg) World.start inputs := by
  have sane := along_invariant sane_step World.start inputs sane_start proper
  refine ⟨?_, ?_, ?_⟩
  · exact along_mono _ _ (fun w i both => entitled_step w i both.1 both.2) sane
  · intro token
    exact tally_le_one (Q := Spent token) sane_step
      (fun w i sane _ logged => spent_of_login token w i sane logged)
      (fun _ i _ _ spent => ⟨spent.not_login i, spent.step i⟩) _ inputs sane_start proper
  · exact along_mono _ _ (fun w i both => unbanned_step w i both.1 both.2) sane

/-- The settings without codes, with the login by mail. -/
def mailing : Config := { verifying with
  emailVerify := false
  loginWithMailLink := true }

def newUser : Input :=
  .register ⟨"ada@example.com", "password", "", "", false, "10.0.0.1", false, "s1"⟩

def quickLink : Input := .getQuickLoginURL ⟨some ⟨1, "s1"⟩, "", "c1"⟩

/-- A registration and a login by a link of its session. -/
theorem one_link_logs_in_once :
    tally (step sample mailing) (logsIn sample mailing "c1") World.start
        [newUser, quickLink, .tokenLogin 0 ⟨"", "c1", ""⟩, .finishTokenLogin 0 "s2",
          .tokenLogin 1 ⟨"", "c1", ""⟩, .finishTokenLogin 1 "s3"] = 1 ∧
      Along (step sample mailing) (Entitled sample mailing) World.start
        [newUser, quickLink, .tokenLogin 0 ⟨"", "c1", ""⟩, .finishTokenLogin 0 "s2",
          .tokenLogin 1 ⟨"", "c1", ""⟩, .finishTokenLogin 1 "s3"] := by
  refine ⟨by decide +kernel, (proper_logins_guarded sample mailing _ ?_).1⟩
  refine ⟨trivial, trivial, ?_, trivial, ?_, trivial, trivial⟩
  · intro m p there
    cases there
  · intro m p there
    change Function.update (Function.update (fun _ => none) 0 (some _)) 0 none m = some p at there
    rw [Function.update_idem, Function.update_apply] at there
    split at there <;> cases there

/-- The link that is mailed is returned to any caller, and two requests that both read a token
both log in. -/
theorem link_returned_and_token_used_twice :
    (¬∀ (lib : Library) (cfg : Config) (inputs : List Input),
        Along (step lib cfg) (Entitled lib cfg) World.start inputs) ∧
      ¬∀ (lib : Library) (cfg : Config) (inputs : List Input) (token : String),
        tally (step lib cfg) (logsIn lib cfg token) World.start inputs ≤ 1 := by
  constructor
  · intro entitled
    have leaked := (entitled sample mailing
      [newUser, .loginWithMailLink ⟨"ada@example.com", "", "c1"⟩]).2.1 1
    exact leaked (by decide +kernel)
  · intro once
    have twice := once sample mailing [newUser, quickLink, .tokenLogin 0 ⟨"", "c1", ""⟩,
      .tokenLogin 1 ⟨"", "c1", ""⟩, .finishTokenLogin 0 "s2", .finishTokenLogin 1 "s3"] "c1"
    exact absurd twice (by decide +kernel)

end ForestPanel.Logins
