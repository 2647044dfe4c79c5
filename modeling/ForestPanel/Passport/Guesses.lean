import ForestPanel.Lib.Transition
import ForestPanel.Passport.Accounts

/-!
# Guessing a code

A request guesses when it names another code than the stored one and would be answered
otherwise if its code were stored. `Forget` counts what it is asked, so that it answers three
guesses while a code is valid; `Register` does not count.
-/
namespace ForestPanel.Passport

open Outcome Transition

inductive Input
  | wait (seconds : Nat)
  | sendEmailVerify (req : SendEmailVerifyRequest) (drawn : Nat)
  | register (req : RegisterRequest)
  | forget (req : ForgetRequest)

inductive Reply
  | done
  | sent (result : Except HTTPError Unit)
  | registered (result : Except HTTPError AuthData)
  | reset (result : Except HTTPError Unit)
deriving DecidableEq

section

variable (lib : Library) (cfg : Config)

def serve (w : World) : Input → Reply × World
  | .wait seconds => (.done, { w with now := w.now + seconds })
  | .sendEmailVerify req drawn =>
    let served := sendEmailVerify lib cfg w req drawn
    (.sent served.1, served.2)
  | .register req =>
    let served := register lib cfg w req
    (.registered served.1, served.2)
  | .forget req =>
    let served := forget lib w req
    (.reset served.1, served.2)

def step (w : World) (i : Input) : World := (serve lib cfg w i).2

@[simp] theorem step_wait (w : World) (seconds : Nat) :
    step lib cfg w (.wait seconds) = { w with now := w.now + seconds } := rfl

@[simp] theorem step_sendEmailVerify (w : World) (req : SendEmailVerifyRequest) (drawn : Nat) :
    step lib cfg w (.sendEmailVerify req drawn) = (sendEmailVerify lib cfg w req drawn).2 := by
  simp only [step, serve]

@[simp] theorem step_register (w : World) (req : RegisterRequest) :
    step lib cfg w (.register req) = (register lib cfg w req).2 := by
  simp only [step, serve]

@[simp] theorem step_forget (w : World) (req : ForgetRequest) :
    step lib cfg w (.forget req) = (forget lib w req).2 := by
  simp only [step, serve]

/-- The stored code of an e-mail is another one. -/
def World.plant (w : World) (email code : String) : World :=
  let key := cacheKey .emailVerifyCode email
  { w with kv := Function.update w.kv key ((w.kv key).map fun row => { row with value := code }) }

def Input.attempt : Input → Option (String × String)
  | .register req => some (normalEmail lib req.email, trimSpace req.emailCode)
  | .forget req => some (normalEmail lib req.email, trimSpace req.emailCode)
  | _ => none

/-- The request names a wrong code for the e-mail, and its answer tells so. -/
def guesses (email : String) (w : World) (i : Input) : Bool :=
  match i.attempt lib, kvGet w.kv w.now (cacheKey .emailVerifyCode email) with
  | some (named, code), some stored =>
    named = email && stored ≠ code &&
      (serve lib cfg w i).1 ≠ (serve lib cfg (w.plant email code) i).1
  | _, _ => false

/-- The condition on a step: a registration that reaches the comparison with a stored code
names that code. -/
def Sure (w : World) : Input → Prop
  | .register req => registerChecks lib cfg w req = .ok () → cfg.emailVerify = true →
      isSixDigitCode (trimSpace req.emailCode) = true → ∀ stored,
        kvGet w.kv w.now (cacheKey .emailVerifyCode (normalEmail lib req.email)) = some stored →
          stored = trimSpace req.emailCode
  | _ => True

def Stored (email : String) (row : KvRow) (w : World) : Prop :=
  w.kv (cacheKey .emailVerifyCode email) = some row ∧ row.isLive w.now = true

instance (email : String) (row : KvRow) (w : World) : Decidable (Stored email row w) :=
  inferInstanceAs (Decidable (_ ∧ _))

variable {lib cfg} {w : World} {email : String}

theorem step_code (w : World) (i : Input) (email : String) :
    (step lib cfg w i).kv (cacheKey .emailVerifyCode email) =
        w.kv (cacheKey .emailVerifyCode email) ∨
      (step lib cfg w i).kv (cacheKey .emailVerifyCode email) = none ∨
      ∃ value, (step lib cfg w i).kv (cacheKey .emailVerifyCode email) =
        some ⟨value, w.now + 300⟩ := by
  cases i with
  | wait seconds => exact Or.inl rfl
  | sendEmailVerify req drawn =>
    rw [step_sendEmailVerify]
    rcases kv_sendEmailVerify req drawn (cacheKey .emailVerifyCode email)
      (fun _ => cacheKey_ne _ _ (by decide)) (fun _ => cacheKey_ne _ _ (by decide)) with same | ⟨_, _, new⟩
    · exact Or.inl same
    · exact Or.inr (Or.inr ⟨_, new⟩)
  | register req =>
    rw [step_register]
    rcases kv_register req (cacheKey .emailVerifyCode email)
      (fun _ => cacheKey_ne _ _ (by decide)) with same | ⟨_, _, gone⟩
    · exact Or.inl same
    · exact Or.inr (Or.inl gone)
  | forget req =>
    rw [step_forget]
    rcases kv_forget req (cacheKey .emailVerifyCode email) with
      same | ⟨_, _, gone⟩ | ⟨_, own, _⟩
    · exact Or.inl same
    · exact Or.inr (Or.inl gone)
    · exact absurd own (cacheKey_ne _ _ (by decide))

theorem step_limit (w : World) (i : Input) (email : String) :
    (step lib cfg w i).kv (cacheKey .forgetRequestLimit email) =
        w.kv (cacheKey .forgetRequestLimit email) ∨
      (kvGetInt w.kv w.now (cacheKey .forgetRequestLimit email) < 3 ∧
        (step lib cfg w i).kv (cacheKey .forgetRequestLimit email) =
          some ⟨formatInt (kvGetInt w.kv w.now (cacheKey .forgetRequestLimit email) + 1),
            w.now + 300⟩) := by
  cases i with
  | wait seconds => exact Or.inl rfl
  | sendEmailVerify req drawn =>
    rw [step_sendEmailVerify]
    rcases kv_sendEmailVerify req drawn (cacheKey .forgetRequestLimit email)
      (fun _ => cacheKey_ne _ _ (by decide)) (fun _ => cacheKey_ne _ _ (by decide)) with same | ⟨_, own, _⟩
    · exact Or.inl same
    · exact absurd own (cacheKey_ne _ _ (by decide))
  | register req =>
    rw [step_register]
    rcases kv_register req (cacheKey .forgetRequestLimit email)
      (fun _ => cacheKey_ne _ _ (by decide)) with same | ⟨_, own, _⟩
    · exact Or.inl same
    · exact absurd own (cacheKey_ne _ _ (by decide))
  | forget req =>
    rw [step_forget]
    rcases kv_forget req (cacheKey .forgetRequestLimit email) with
      same | ⟨_, own, _⟩ | ⟨_, _, few, counted⟩
    · exact Or.inl same
    · exact absurd own (cacheKey_ne _ _ (by decide))
    · exact Or.inr ⟨few, counted⟩

theorem kv_plant (w : World) (email code : String) {key : String}
    (other : key ≠ cacheKey .emailVerifyCode email) : (w.plant email code).kv key = w.kv key :=
  Function.update_of_ne other ..

theorem registerChecks_plant (w : World) (email code : String) (req : RegisterRequest) :
    registerChecks lib cfg (w.plant email code) req = registerChecks lib cfg w req := by
  have limit : kvGetInt (w.plant email code).kv (w.plant email code).now
      (cacheKey .registerIPRateLimit req.ip) =
        kvGetInt w.kv w.now (cacheKey .registerIPRateLimit req.ip) :=
    kvGetInt_congr (kv_plant w email code (cacheKey_ne _ _ (by decide)))
  unfold registerChecks
  rw [limit]

theorem createAccount_plant (w : World) (email code e : String) (req : RegisterRequest) :
    (createAccount lib cfg (w.plant email code) e req).1 = (createAccount lib cfg w e req).1 := by
  have users : (w.plant email code).users = w.users := rfl
  have number : (w.plant email code).nextUser = w.nextUser := rfl
  unfold createAccount World.emailExists World.findUserByEmail createAuthData
  rw [users, number]
  split
  · rfl
  split
  · rfl
  split
  · rfl
  split <;> rfl

theorem guesses_register (w : World) (req : RegisterRequest) (email : String)
    (sure : Sure lib cfg w (.register req)) : guesses lib cfg email w (.register req) = false := by
  by_contra guess
  rw [Bool.not_eq_false] at guess
  unfold guesses Input.attempt at guess
  dsimp only at guess
  cases found : kvGet w.kv w.now (cacheKey .emailVerifyCode email) with
  | none =>
    rw [found] at guess
    cases guess
  | some stored =>
    rw [found] at guess
    simp only [Bool.and_eq_true, decide_eq_true_eq] at guess
    obtain ⟨⟨named, wrong⟩, differs⟩ := guess
    apply differs
    have same : (register lib cfg w req).1 =
        (register lib cfg (w.plant email (trimSpace req.emailCode)) req).1 := by
      unfold register
      dsimp only
      rw [registerChecks_plant]
      split
      · rfl
      next passed =>
        have code : registerCode cfg (w.plant email (trimSpace req.emailCode))
            (normalEmail lib req.email) (trimSpace req.emailCode) =
              registerCode cfg w (normalEmail lib req.email) (trimSpace req.emailCode) := by
          unfold registerCode
          by_cases verified : cfg.emailVerify = false
          · rw [if_pos verified, if_pos verified]
          rw [if_neg verified, if_neg verified]
          split
          · rfl
          split
          · rfl
          next digits =>
            rw [Bool.not_eq_false] at verified digits
            rw [← named] at found
            exact absurd (sure passed verified digits stored found) wrong
        rw [code]
        split
        · rfl
        · exact (createAccount_plant w email _ _ req).symm
    simp only [serve, same]

theorem guesses_forget (w : World) (req : ForgetRequest) (email : String)
    (guess : guesses lib cfg email w (.forget req) = true) :
    kvGetInt w.kv w.now (cacheKey .forgetRequestLimit email) < 3 ∧
      (step lib cfg w (.forget req)).kv (cacheKey .forgetRequestLimit email) =
        some ⟨formatInt (kvGetInt w.kv w.now (cacheKey .forgetRequestLimit email) + 1),
          w.now + 300⟩ := by
  unfold guesses Input.attempt at guess
  dsimp only at guess
  cases found : kvGet w.kv w.now (cacheKey .emailVerifyCode email) with
  | none =>
    rw [found] at guess
    cases guess
  | some stored =>
    rw [found] at guess
    simp only [Bool.and_eq_true, decide_eq_true_eq] at guess
    obtain ⟨⟨named, wrong⟩, differs⟩ := guess
    have limit : kvGetInt (w.plant email (trimSpace req.emailCode)).kv w.now
        (cacheKey .forgetRequestLimit email) =
          kvGetInt w.kv w.now (cacheKey .forgetRequestLimit email) :=
      kvGetInt_congr (kv_plant w email _ (cacheKey_ne _ _ (by decide)))
    have clock : (w.plant email (trimSpace req.emailCode)).now = w.now := rfl
    rw [step_forget]
    simp only [serve] at differs
    unfold forget at differs ⊢
    dsimp only at differs ⊢
    rw [clock, named, limit] at differs
    rw [named]
    -- before the count is read, and once it is used up, the stored code plays no part
    split at differs
    · exact absurd rfl differs
    next =>
      by_cases used : 3 ≤ kvGetInt w.kv w.now (cacheKey .forgetRequestLimit email)
      · rw [if_pos used, if_pos used] at differs
        exact absurd rfl differs
      · have few : kvGetInt w.kv w.now (cacheKey .forgetRequestLimit email) < 3 := by omega
        have refused : kvGet w.kv w.now (cacheKey .emailVerifyCode email) ≠
            some (trimSpace req.emailCode) := by
          rw [found]
          exact fun same => wrong (Option.some.inj same)
        rw [if_neg used, if_pos refused]
        exact ⟨few, kvSet_self (by decide)⟩

structure Timed (w : World) : Prop where
  clock : 0 ≤ w.now
  codes : ∀ email row, w.kv (cacheKey .emailVerifyCode email) = some row →
    0 < row.expireAt ∧ row.expireAt ≤ w.now + 300
  counts : ∀ email row, w.kv (cacheKey .forgetRequestLimit email) = some row →
    0 ≤ (parseInt row.value).getD 0

theorem timed_start : Timed World.start := ⟨Int.le_refl _, nofun, nofun⟩

theorem now_le_step (w : World) (i : Input) : w.now ≤ (step lib cfg w i).now := by
  cases i with
  | wait seconds =>
    rw [step_wait]
    dsimp only
    omega
  | sendEmailVerify req drawn =>
    rw [step_sendEmailVerify]
    unfold sendEmailVerify
    dsimp only
    split
    · exact Int.le_refl _
    split
    · exact Int.le_refl _
    split <;> exact Int.le_refl _
  | register req =>
    rw [step_register]
    unfold register
    dsimp only
    split
    · exact Int.le_refl _
    split
    · exact Int.le_refl _
    unfold createAccount
    split
    · exact Int.le_refl _
    split
    · exact Int.le_refl _
    split
    · exact Int.le_refl _
    unfold createAuthData
    split <;> exact Int.le_refl _
  | forget req =>
    rw [step_forget]
    unfold forget
    dsimp only
    split
    · exact Int.le_refl _
    split
    · exact Int.le_refl _
    split
    · exact Int.le_refl _
    split
    · exact Int.le_refl _
    split <;> exact Int.le_refl _

theorem Timed.count (timed : Timed w) (email : String) :
    0 ≤ kvGetInt w.kv w.now (cacheKey .forgetRequestLimit email) ∧
      (kvGetInt w.kv w.now (cacheKey .forgetRequestLimit email) < 3 →
        parseInt (formatInt (kvGetInt w.kv w.now (cacheKey .forgetRequestLimit email) + 1)) =
          some (kvGetInt w.kv w.now (cacheKey .forgetRequestLimit email) + 1)) := by
  have nonneg : 0 ≤ kvGetInt w.kv w.now (cacheKey .forgetRequestLimit email) := by
    unfold kvGetInt kvGet
    cases found : w.kv (cacheKey .forgetRequestLimit email) with
    | none => exact Int.le_refl _
    | some row =>
      dsimp only
      split
      next => exact Int.le_refl _
      next raw live =>
        split at live
        · obtain rfl := Option.some.inj live
          exact timed.counts email row found
        · cases live
  refine ⟨nonneg, fun few => parseInt_formatInt ?_⟩
  unfold Decimal.Fits
  omega

theorem Timed.step (timed : Timed w) (i : Input) : Timed (step lib cfg w i) := by
  have later := @now_le_step lib cfg w i
  have clock := timed.clock
  constructor
  case clock => omega
  case codes =>
    intro email row stored
    rcases @step_code lib cfg w i email with same | gone | ⟨value, new⟩
    · have before := timed.codes email row (same ▸ stored)
      omega
    · rw [gone] at stored
      cases stored
    · rw [new] at stored
      obtain rfl := Option.some.inj stored
      dsimp only
      omega
  case counts =>
    intro email row stored
    rcases @step_limit lib cfg w i email with same | ⟨few, counted⟩
    · exact timed.counts email row (same ▸ stored)
    · rw [counted] at stored
      obtain rfl := Option.some.inj stored
      obtain ⟨nonneg, back⟩ := timed.count email
      dsimp only
      rw [back few, Option.getD_some]
      omega

/-- How many guesses are left while a code that expires at `expireAt` is valid. -/
def left (email : String) (expireAt : Int) (w : World) : Nat :=
  match w.kv (cacheKey .forgetRequestLimit email) with
  | none => 3
  | some row => if expireAt ≤ row.expireAt then 3 - ((parseInt row.value).getD 0).toNat else 3

theorem left_of_live {expireAt : Int} (live : 0 < expireAt → w.now < expireAt)
    (positive : 0 < expireAt) :
    3 - (kvGetInt w.kv w.now (cacheKey .forgetRequestLimit email)).toNat ≤
      left email expireAt w := by
  unfold left
  split
  · omega
  next row found =>
    split
    next lasting =>
      have alive : row.isLive w.now = true := by
        unfold KvRow.isLive
        have before := live positive
        rw [Bool.not_eq_true', Bool.and_eq_false_iff, decide_eq_false_iff_not,
          decide_eq_false_iff_not]
        omega
      have read : kvGet w.kv w.now (cacheKey .forgetRequestLimit email) = some row.value :=
        kvGet_eq_some.mpr ⟨row, found, alive, rfl⟩
      unfold kvGetInt
      rw [read]
    next => omega

theorem left_counted {expireAt : Int} (timed : Timed w) (w' : World)
    (few : kvGetInt w.kv w.now (cacheKey .forgetRequestLimit email) < 3)
    (lasting : expireAt ≤ w.now + 300)
    (counted : w'.kv (cacheKey .forgetRequestLimit email) =
      some ⟨formatInt (kvGetInt w.kv w.now (cacheKey .forgetRequestLimit email) + 1),
        w.now + 300⟩) :
    left email expireAt w' + 1 =
      3 - (kvGetInt w.kv w.now (cacheKey .forgetRequestLimit email)).toNat := by
  obtain ⟨nonneg, back⟩ := timed.count email
  unfold left
  rw [counted]
  dsimp only
  rw [if_pos lasting, back few, Option.getD_some]
  omega

theorem guess_pays {row : KvRow} (w : World) (i : Input) (timed : Timed w)
    (stored : Stored email row w) (sure : Sure lib cfg w i) :
    (if guesses lib cfg email w i = true then 1 else 0) + left email row.expireAt (step lib cfg w i) ≤
      left email row.expireAt w := by
  obtain ⟨positive, lasting⟩ := timed.codes email row stored.1
  have live : 0 < row.expireAt → w.now < row.expireAt := by
    have alive := stored.2
    unfold KvRow.isLive at alive
    rw [Bool.not_eq_true', Bool.and_eq_false_iff, decide_eq_false_iff_not,
      decide_eq_false_iff_not] at alive
    omega
  have bound := @left_of_live _ email _ live positive
  have quiet : left email row.expireAt (step lib cfg w i) ≤ left email row.expireAt w := by
    rcases @step_limit lib cfg w i email with same | ⟨few, counted⟩
    · unfold left
      rw [same]
    · have spent := left_counted timed _ few lasting counted
      omega
  cases i with
  | wait seconds => exact (Nat.zero_add _).trans_le quiet
  | sendEmailVerify req drawn => exact (Nat.zero_add _).trans_le quiet
  | register req =>
    rw [guesses_register w req email sure]
    exact (Nat.zero_add _).trans_le quiet
  | forget req =>
    split
    next guess =>
      obtain ⟨few, counted⟩ := guesses_forget w req email guess
      have spent := left_counted timed _ few lasting counted
      omega
    next => exact (Nat.zero_add _).trans_le quiet

end

/-- A library that knows ASCII letters and stores passwords as they are. -/
def sample : Library where
  lower := fun s => String.ofList (s.toList.map Char.toLower)
  parseAddress := some
  hash := some
  verify := fun _ _ password hash => password = hash

def verifying : Config where
  appKey := "key"
  appURL := ""
  recaptcha := false
  emailVerify := true
  emailWhitelistEnabled := false
  emailWhitelist := []
  emailGmailLimitEnabled := false
  stopRegister := false
  inviteForce := false
  registerLimitByIP := false
  registerLimitCount := 3
  registerLimitExpireMin := 60
  passwordLimitEnabled := true
  passwordLimitCount := 5
  passwordLimitExpireMin := 60
  loginWithMailLink := false

def askCode (isForget : Int) (drawn : Nat) : Input :=
  .sendEmailVerify ⟨"ada@example.com", false, isForget, true, "10.0.0.1"⟩ drawn

def tryRegister (code : String) : Input :=
  .register ⟨"ada@example.com", "password", "", code, false, "10.0.0.1", false, "s"⟩

def tryForget (code : String) : Input := .forget ⟨"ada@example.com", "password", code⟩

/-- An account, and a code that was sent to reset its password. -/
def accountWithCode : List Input :=
  [askCode 0 7, tryRegister "000007", .wait 60, askCode 1 4]

end ForestPanel.Passport
