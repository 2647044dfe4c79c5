import ForestPanel.UserMigration.Preview
import Mathlib.Algebra.GroupWithZero.Nat
import Mathlib.Data.List.Forall2
import Mathlib.Data.List.Nodup

/-!
# What a preview imports

Every user of the source site gets one verdict, and is counted for it. The users to import have
their own e-mails, tokens and UUIDs, and the balance that the policy asks for.
-/
namespace ForestPanel.UserMigration.Preview

open ClientEntry (StandardLibrary)
open Outcome

def Counts.of (c : Counts) : Option Reason → Nat
  | none => c.importable
  | some .skippedPrivileged => c.skippedPrivileged
  | some .skippedExisting => c.skippedExisting
  | some .skippedDuplicateEmail => c.skippedDuplicateEmail
  | some .skippedLockedBalance => c.skippedLockedBalance
  | some .skippedPlan => c.skippedPlan
  | some .invalidEmail => c.invalidEmail
  | some .unsupportedPassword => c.unsupportedPassword
  | some .invalidValues => c.invalidValues
  | some .unmappedPlan => c.unmappedPlan

/-- The users to import, those that are skipped and those that are not valid. -/
def Counts.categories (c : Counts) : List Nat :=
  [c.importable, c.skippedPrivileged, c.skippedExisting, c.skippedDuplicateEmail,
    c.skippedLockedBalance, c.skippedPlan, c.invalidEmail, c.unsupportedPassword, c.invalidValues,
    c.unmappedPlan]

def chosen (users : List SourceUser) (verdicts : List (Option Reason)) : List SourceUser :=
  ((users.zip verdicts).filter fun judged => judged.2.isNone).map Prod.fst

variable {draws : List Draw} {q : Progress} {user : InsertUser} {done : List SourceUser}
  {verdicts : List (Option Reason)}

section

variable (lib : Library) (req : Request)

structure Imports (src : SourceUser) (user : InsertUser) : Prop where
  ordinary : src.isAdmin = 0 ∧ src.isStaff = 0
  fields : user.toSourceUser =
    { imported lib req src user.targetPlan with token := user.token, uuid := user.uuid }
  balance : user.balance =
    src.balance + if req.policy = "to_balance" then src.lockingBalance else 0
  range : minInt32 ≤ user.balance ∧ user.balance ≤ maxInt32
  unlocked : req.policy = "skip" → src.lockingBalance = 0
  /-- The token is kept, or no user of the source site has it. -/
  token : (req.regenerate.tokens = false ∧ user.token = trimSpace src.token) ∨
    ∀ other ∈ req.users, trimSpace user.token ≠ trimSpace other.token
  uuid : (req.regenerate.uuids = false ∧ user.uuid = uuidKey lib src.uuid) ∨
    ∀ other ∈ req.users, uuidKey lib user.uuid ≠ uuidKey lib other.uuid

/-- No e-mail, token or UUID of the users is one of the others. -/
def Apart (users : List InsertUser) (others : List TargetUser) : Prop :=
  ∀ user ∈ users, ∀ other ∈ others, emailKey lib user.email ≠ emailKey lib other.email ∧
    trimSpace user.token ≠ trimSpace other.token ∧ uuidKey lib user.uuid ≠ uuidKey lib other.uuid

/-- The preview counts every user once and imports only safe ones. -/
structure Safe (others : List TargetUser) (built : Built) : Prop where
  partition : ∃ verdicts : List (Option Reason), verdicts.length = req.users.length ∧
    (∀ verdict, built.result.counts.of verdict = verdicts.count verdict) ∧
    List.Forall₂ (Imports lib req) (chosen req.users verdicts) built.users
  total : built.result.counts.categories.sum = req.users.length
  emails : (built.users.map fun user => emailKey lib user.email).Nodup
  tokens : (built.users.map fun user => trimSpace user.token).Nodup
  uuids : (built.users.map fun user => uuidKey lib user.uuid).Nodup
  apart : Apart lib built.users others

variable {lib req} {target : TargetState} {p p' : Progress} {src : SourceUser}

/-- A letter that no key of a text changes. -/
private def Plain (c : Char) : Prop := isSpace c = false ∧ c.toNat < 128 ∧ c.toLower = c

private instance (c : Char) : Decidable (Plain c) := inferInstanceAs (Decidable (_ ∧ _))

private theorem plain_hexDigit {n : Nat} (digit : n < 16) : Plain (hexDigit n) := by
  have all : ∀ i : Fin 16, Plain (hexDigit i.val) := by decide
  exact all ⟨n, digit⟩

private theorem plain_hexEncode (bytes : List (Fin 256)) : ∀ c ∈ hexEncode bytes, Plain c := by
  intro c member
  obtain ⟨b, -, here⟩ := List.mem_flatMap.mp member
  have small := b.isLt
  rcases List.mem_cons.mp here with rfl | here
  · exact plain_hexDigit (by omega)
  · rw [List.mem_singleton.mp here]
    exact plain_hexDigit (by omega)

theorem trimSpace_randomToken (draw : Draw) : trimSpace (randomToken draw) = randomToken draw := by
  apply trimSpace_of_visible
  intro c member
  rw [randomToken, String.toList_ofList] at member
  exact (plain_hexEncode _ c member).1

private theorem plain_randomUUID (draw : Draw) : ∀ c ∈ (randomUUID draw).toList, Plain c := by
  intro c member
  have hex := plain_hexEncode draw.val
  rw [randomUUID, String.toList_ofList] at member
  simp only [List.mem_append, List.mem_cons] at member
  rcases member with (((here | rfl | here) | rfl | rfl | here) | rfl | rfl | here) | rfl | here
  · exact hex c (List.mem_of_mem_take here)
  · decide
  · exact hex c (List.mem_of_mem_drop (List.mem_of_mem_take here))
  · decide
  · decide
  · exact hex c (List.mem_of_mem_drop (List.mem_of_mem_take here))
  · decide
  · decide
  · exact hex c (List.mem_of_mem_drop (List.mem_of_mem_take here))
  · decide
  · exact hex c (List.mem_of_mem_drop here)

theorem uuidKey_randomUUID (draw : Draw) : uuidKey lib (randomUUID draw) = randomUUID draw := by
  have plain := plain_randomUUID draw
  unfold uuidKey
  rw [trimSpace_of_visible fun c member => (plain c member).1]
  exact lib.lower_word fun c member => (plain c member).2

theorem drawFresh_ok {make : Draw → String} {taken : String → Bool} {rest : List Draw}
    {text : String} (drawn : drawFresh make taken draws = .ok (text, rest)) :
    taken text = false ∧ ∃ draw, text = make draw := by
  induction draws with
  | nil => cases drawn
  | cons draw later ih =>
    unfold drawFresh at drawn
    split at drawn
    next => exact ih drawn
    next free =>
      cases drawn
      exact ⟨Bool.not_eq_true _ ▸ free, draw, rfl⟩

structure Skips (p p' : Progress) (reason : Reason) : Prop where
  counted : ∀ r, p'.counts.of (some r) = p.counts.of (some r) + if r = reason then 1 else 0
  users : p'.users = p.users
  tokens : p'.tokens = p.tokens
  uuids : p'.uuids = p.uuids
  seen : p.seen ⊆ p'.seen

structure Admits (lib : Library) (req : Request) (p p' : Progress) (src : SourceUser)
    (user : InsertUser) : Prop where
  counted : ∀ r, p'.counts.of (some r) = p.counts.of (some r)
  users : p'.users = p.users ++ [user]
  tokens : p'.tokens = user.token :: p.tokens
  uuids : p'.uuids = user.uuid :: p.uuids
  seen : p.seen ⊆ p'.seen
  newToken : user.token ∉ p.tokens
  newUUID : user.uuid ∉ p.uuids
  trimmed : trimSpace user.token = user.token
  lowered : uuidKey lib user.uuid = user.uuid
  valid : validValues src req.policy = true
  fields : user.toSourceUser =
    { imported lib req src user.targetPlan with token := user.token, uuid := user.uuid }
  token : (req.regenerate.tokens = false ∧ user.token = trimSpace src.token) ∨
    ∀ other ∈ req.users, trimSpace user.token ≠ trimSpace other.token
  uuid : (req.regenerate.uuids = false ∧ user.uuid = uuidKey lib src.uuid) ∨
    ∀ other ∈ req.users, uuidKey lib user.uuid ≠ uuidKey lib other.uuid

def Judged (lib : Library) (req : Request) (p p' : Progress) (src : SourceUser) : Prop :=
  (∃ reason, Skips p p' reason) ∨ ∃ user, Admits lib req p p' src user

theorem skips_skip (p : Progress) (reason : Reason) : Skips p (p.skip reason) reason := by
  refine ⟨?_, rfl, rfl, rfl, fun _ member => member⟩
  intro r
  cases reason <;> cases r <;> rfl

structure Tokened (req : Request) (p p' : Progress) (src : SourceUser) (token : String) : Prop where
  counted : ∀ r, p'.counts.of (some r) = p.counts.of (some r)
  users : p'.users = p.users
  tokens : p'.tokens = token :: p.tokens
  uuids : p'.uuids = p.uuids
  seen : p'.seen = p.seen
  new : token ∉ p.tokens
  trimmed : trimSpace token = token
  kept : (req.regenerate.tokens = false ∧ token = trimSpace src.token) ∨
    ∀ other ∈ req.users, trimSpace token ≠ trimSpace other.token

theorem importToken_ok {token : String}
    (returned : importToken req.users req.regenerate.tokens p src = .ok (token, p')) :
    Tokened req p p' src token := by
  unfold importToken at returned
  dsimp only at returned
  split at returned
  next =>
    simp only [bind_eq_ok, pure_eq_ok, Prod.exists, Prod.mk.injEq] at returned
    obtain ⟨drawn, draws, fresh, rfl, rfl⟩ := returned
    obtain ⟨free, draw, rfl⟩ := drawFresh_ok fresh
    rw [Bool.or_eq_false_iff, decide_eq_false_iff_not, decide_eq_false_iff_not] at free
    refine ⟨?_, rfl, rfl, rfl, rfl, free.1, trimSpace_randomToken draw, Or.inr ?_⟩
    · intro r
      cases r <;> rfl
    · intro other member same
      rw [trimSpace_randomToken] at same
      exact free.2 (same ▸ List.mem_map_of_mem member)
  next keep =>
    rw [not_or, not_or, Bool.not_eq_true] at keep
    obtain ⟨rfl, rfl⟩ := Prod.mk.inj (Except.ok.inj returned)
    exact ⟨fun _ => rfl, rfl, rfl, rfl, rfl, keep.2.2, trimSpace_trimSpace _,
      Or.inl ⟨keep.1, rfl⟩⟩

structure Numbered (lib : Library) (req : Request) (p p' : Progress) (src : SourceUser)
    (uuid : String) : Prop where
  counted : ∀ r, p'.counts.of (some r) = p.counts.of (some r)
  users : p'.users = p.users
  tokens : p'.tokens = p.tokens
  uuids : p'.uuids = uuid :: p.uuids
  seen : p'.seen = p.seen
  new : uuid ∉ p.uuids
  lowered : uuidKey lib uuid = uuid
  kept : (req.regenerate.uuids = false ∧ uuid = uuidKey lib src.uuid) ∨
    ∀ other ∈ req.users, uuidKey lib uuid ≠ uuidKey lib other.uuid

theorem importUUID_ok {uuid : String}
    (returned : importUUID lib req.users req.regenerate.uuids p src = .ok (uuid, p')) :
    Numbered lib req p p' src uuid := by
  unfold importUUID at returned
  dsimp only at returned
  split at returned
  next =>
    simp only [bind_eq_ok, pure_eq_ok, Prod.exists, Prod.mk.injEq] at returned
    obtain ⟨drawn, draws, fresh, rfl, rfl⟩ := returned
    obtain ⟨free, draw, rfl⟩ := drawFresh_ok fresh
    rw [Bool.or_eq_false_iff, decide_eq_false_iff_not, decide_eq_false_iff_not] at free
    refine ⟨?_, rfl, rfl, rfl, rfl, free.1, uuidKey_randomUUID draw, Or.inr ?_⟩
    · intro r
      cases r <;> rfl
    · intro other member same
      rw [uuidKey_randomUUID] at same
      exact free.2 (same ▸ List.mem_map_of_mem member)
  next keep =>
    rw [not_or, not_or, Bool.not_eq_true] at keep
    obtain ⟨rfl, rfl⟩ := Prod.mk.inj (Except.ok.inj returned)
    exact ⟨fun _ => rfl, rfl, rfl, rfl, rfl, keep.2.2, lib.lower_trimSpace_again _,
      Or.inl ⟨keep.1, rfl⟩⟩

/-- Two states of the preview that differ in nothing that is followed here. -/
structure Like (p q : Progress) : Prop where
  counted : ∀ r, q.counts.of (some r) = p.counts.of (some r)
  users : q.users = p.users
  tokens : q.tokens = p.tokens
  uuids : q.uuids = p.uuids
  seen : p.seen ⊆ q.seen

theorem like_countPlan (p : Progress) (plan : Option Plan) : Like p (p.countPlan plan) := by
  unfold Progress.countPlan
  split
  · refine ⟨?_, rfl, rfl, rfl, fun _ member => member⟩
    intro r
    cases r <;> rfl
  · exact ⟨fun _ => rfl, rfl, rfl, rfl, fun _ member => member⟩

theorem like_plans (p : Progress) (plans : List Plan) : Like p { p with plans } :=
  ⟨fun _ => rfl, rfl, rfl, rfl, fun _ member => member⟩

theorem Like.skips {reason : Reason} (like : Like p q) (skips : Skips q p' reason) :
    Skips p p' reason where
  counted r := by rw [skips.counted, like.counted]
  users := skips.users.trans like.users
  tokens := skips.tokens.trans like.tokens
  uuids := skips.uuids.trans like.uuids
  seen _ member := skips.seen (like.seen member)

theorem Like.admits (like : Like p q) (admits : Admits lib req q p' src user) :
    Admits lib req p p' src user where
  counted r := (admits.counted r).trans (like.counted r)
  users := by rw [admits.users, like.users]
  tokens := by rw [admits.tokens, like.tokens]
  uuids := by rw [admits.uuids, like.uuids]
  seen _ member := admits.seen (like.seen member)
  newToken := like.tokens ▸ admits.newToken
  newUUID := like.uuids ▸ admits.newUUID
  trimmed := admits.trimmed
  lowered := admits.lowered
  valid := admits.valid
  fields := admits.fields
  token := admits.token
  uuid := admits.uuid

theorem Like.judged (like : Like p q) (judged : Judged lib req q p' src) :
    Judged lib req p p' src := by
  rcases judged with ⟨reason, skips⟩ | ⟨user, admits⟩
  · exact Or.inl ⟨reason, like.skips skips⟩
  · exact Or.inr ⟨user, like.admits admits⟩

theorem judged_admitUser {plan : Option Plan} (valid : validValues src req.policy = true)
    (returned : admitUser lib req p src plan = .ok p') : Judged lib req p p' src := by
  apply (like_countPlan p plan).judged
  unfold admitUser at returned
  simp only [bind_eq_ok, pure_eq_ok, Prod.exists] at returned
  obtain ⟨token, second, first, uuid, third, numbered, rfl⟩ := returned
  have tokened := importToken_ok first
  have numbers := importUUID_ok numbered
  right
  constructor
  constructor
  case counted => exact fun r => (numbers.counted r).trans (tokened.counted r)
  case users => exact congrArg (· ++ [_]) (numbers.users.trans tokened.users)
  case tokens => exact numbers.tokens.trans tokened.tokens
  case uuids => exact numbers.uuids.trans (congrArg _ tokened.uuids)
  case seen => exact fun _ member => numbers.seen ▸ tokened.seen ▸ member
  case newToken => exact tokened.new
  case newUUID => exact tokened.uuids ▸ numbers.new
  case trimmed => exact tokened.trimmed
  case lowered => exact numbers.lowered
  case valid => exact valid
  case fields => rfl
  case token => exact tokened.kept
  case uuid => exact numbers.kept

theorem judged_skip (p : Progress) (src : SourceUser) (reason : Reason) :
    Judged lib req p (p.skip reason) src :=
  Or.inl ⟨reason, skips_skip p reason⟩

theorem judged_checkUser {plan : Option Plan}
    (returned : checkUser lib req p src plan = .ok p') : Judged lib req p p' src := by
  unfold checkUser at returned
  split at returned
  · cases returned
    exact judged_skip p src _
  split at returned
  · cases returned
    exact judged_skip p src _
  next valid => exact judged_admitUser (Bool.not_eq_false _ ▸ valid) returned

theorem judged_choosePlan (returned : choosePlan lib req target p src = .ok p') :
    Judged lib req p p' src := by
  unfold choosePlan at returned
  split at returned
  · exact judged_checkUser returned
  split at returned
  · cases returned
    exact judged_skip p src _
  split at returned
  · cases returned
    exact judged_skip p src _
  split at returned
  · cases returned
  · exact (like_plans p _).judged (judged_checkUser returned)

theorem judged_checkLocked (returned : checkLocked lib req target p src = .ok p') :
    (∃ reason, Skips p p' reason) ∨
      (src.lockingBalance ≤ 0 ∨ req.policy ≠ "skip") ∧ ∃ user, Admits lib req p p' src user := by
  unfold checkLocked at returned
  split at returned
  next locked =>
    dsimp only at returned
    split at returned
    · cases returned
    have like : Like p { p with counts := { p.counts with
        lockingBalanceUsers := p.counts.lockingBalanceUsers + 1
        lockingBalanceTotal := p.counts.lockingBalanceTotal + src.lockingBalance } } := by
      refine ⟨?_, rfl, rfl, rfl, fun _ member => member⟩
      intro r
      cases r <;> rfl
    split at returned
    · rw [← Except.ok.inj returned]
      exact Or.inl ⟨_, like.skips (skips_skip _ .skippedLockedBalance)⟩
    next kept =>
      rcases like.judged (judged_choosePlan returned) with skipped | admitted
      · exact Or.inl skipped
      · exact Or.inr ⟨Or.inr kept, admitted⟩
  next free =>
    rcases judged_choosePlan returned with skipped | admitted
    · exact Or.inl skipped
    · exact Or.inr ⟨Or.inl (by omega), admitted⟩

theorem visit_ok (returned : visit lib req target p src = .ok p') :
    (∃ reason, Skips p p' reason) ∨
      ∃ user, Admits lib req p p' src user ∧ (src.isAdmin = 0 ∧ src.isStaff = 0) ∧
        (src.lockingBalance ≤ 0 ∨ req.policy ≠ "skip") ∧
        emailKey lib src.email ∉ target.emails ∧ emailKey lib src.email ∉ p.seen ∧
        emailKey lib src.email ∈ p'.seen := by
  unfold visit at returned
  dsimp only at returned
  split at returned
  · cases returned
    exact Or.inl ⟨_, skips_skip p _⟩
  next ordinary =>
  split at returned
  · cases returned
    exact Or.inl ⟨_, skips_skip p _⟩
  next absent =>
  split at returned
  · cases returned
    exact Or.inl ⟨_, skips_skip p _⟩
  split at returned
  · cases returned
    exact Or.inl ⟨_, skips_skip p _⟩
  next first =>
  have like : Like p { p with seen := emailKey lib src.email :: p.seen } :=
    ⟨fun _ => rfl, rfl, rfl, rfl, fun _ member => List.mem_cons_of_mem _ member⟩
  rcases judged_checkLocked returned with ⟨reason, skipped⟩ | ⟨policy, user, admitted⟩
  · exact Or.inl ⟨reason, like.skips skipped⟩
  · exact Or.inr ⟨user, like.admits admitted, by omega, policy, absent, first,
      admitted.seen List.mem_cons_self⟩

theorem imports_of_admits (admits : Admits lib req p p' src user)
    (ordinary : src.isAdmin = 0 ∧ src.isStaff = 0)
    (policy : src.lockingBalance ≤ 0 ∨ req.policy ≠ "skip") : Imports lib req src user := by
  have values := admits.valid
  have money : user.balance =
      if req.policy = "to_balance" then src.balance + src.lockingBalance else src.balance :=
    congrArg SourceUser.balance admits.fields
  unfold validValues at values
  split at values
  · cases values
  next range =>
  split at values
  · cases values
  split at values
  · cases values
  next fits =>
  simp only [not_or, in32, Bool.and_eq_false_iff, decide_eq_false_iff_not, not_and] at range fits
  constructor
  case ordinary => exact ordinary
  case fields => exact admits.fields
  case balance =>
    rw [money]
    split <;> omega
  case range =>
    rw [money]
    split
    next added =>
      have limit := fits added
      unfold minInt32 at *
      omega
    next => omega
  case unlocked =>
    intro skip
    rcases policy with free | other
    · omega
    · exact absurd skip other
  case token => exact admits.token
  case uuid => exact admits.uuid

/-- What holds after the users `done`, with the verdict on each of them. -/
structure Sorted (lib : Library) (req : Request) (target : TargetState) (done : List SourceUser)
    (verdicts : List (Option Reason)) (p : Progress) : Prop where
  judged : verdicts.length = done.length
  counted : ∀ r, p.counts.of (some r) = verdicts.count (some r)
  imported : List.Forall₂ (Imports lib req) (chosen done verdicts) p.users
  tokens : p.tokens = (p.users.map fun user => user.token).reverse ++ target.tokens
  uuids : p.uuids = (p.users.map fun user => user.uuid).reverse ++ target.uuids
  seen : ∀ user ∈ p.users, user.email ∈ p.seen ∧ user.email ∉ target.emails
  emails : (p.users.map fun user => user.email).Nodup
  newTokens : (p.users.map fun user => user.token).Nodup
  newUUIDs : (p.users.map fun user => user.uuid).Nodup
  foreign : ∀ user ∈ p.users, user.token ∉ target.tokens ∧ user.uuid ∉ target.uuids
  normal : ∀ user ∈ p.users, emailKey lib user.email = user.email ∧
    trimSpace user.token = user.token ∧ uuidKey lib user.uuid = user.uuid

theorem sorted_start (draws : List Draw) :
    Sorted lib req target [] [] (Progress.start req target draws) := by
  constructor
  case counted =>
    intro r
    cases r <;> rfl
  case imported => exact List.Forall₂.nil
  case emails => exact List.nodup_nil
  case newTokens => exact List.nodup_nil
  case newUUIDs => exact List.nodup_nil
  all_goals first | rfl | exact fun _ member => (List.not_mem_nil member).elim

theorem chosen_append (judged : verdicts.length = done.length) (src : SourceUser)
    (verdict : Option Reason) :
    chosen (done ++ [src]) (verdicts ++ [verdict]) =
      chosen done verdicts ++ if verdict = none then [src] else [] := by
  unfold chosen
  rw [List.zip_append judged.symm, List.filter_append, List.map_append]
  cases verdict <;> rfl

theorem length_chosen {users : List SourceUser} (judged : verdicts.length = users.length) :
    (chosen users verdicts).length = verdicts.count none := by
  unfold chosen
  induction users generalizing verdicts with
  | nil =>
    rw [List.eq_nil_of_length_eq_zero judged]
    rfl
  | cons user users ih =>
    cases verdicts with
    | nil => cases judged
    | cons verdict verdicts =>
      have rest := ih (Nat.succ.inj judged)
      cases verdict with
      | none => simpa using rest
      | some reason => simpa using rest

theorem count_append (verdicts : List (Option Reason)) (verdict other : Option Reason) :
    (verdicts ++ [verdict]).count other =
      verdicts.count other + if other = verdict then 1 else 0 := by
  rw [List.count_append, List.count_singleton]
  by_cases same : other = verdict
  · simp [same]
  · simp [same, Ne.symm same]

theorem Sorted.skipped {reason : Reason} (sorted : Sorted lib req target done verdicts p)
    (skips : Skips p p' reason) (src : SourceUser) :
    Sorted lib req target (done ++ [src]) (verdicts ++ [some reason]) p' := by
  constructor
  case judged => simp [sorted.judged]
  case counted =>
    intro r
    rw [skips.counted, sorted.counted, count_append]
    simp
  case imported =>
    rw [chosen_append sorted.judged, skips.users]
    simpa using sorted.imported
  case tokens => rw [skips.tokens, skips.users, sorted.tokens]
  case uuids => rw [skips.uuids, skips.users, sorted.uuids]
  case seen =>
    rw [skips.users]
    exact fun user member => ⟨skips.seen (sorted.seen user member).1, (sorted.seen user member).2⟩
  all_goals rw [skips.users]
  case emails => exact sorted.emails
  case newTokens => exact sorted.newTokens
  case newUUIDs => exact sorted.newUUIDs
  case foreign => exact sorted.foreign
  case normal => exact sorted.normal

private theorem nodup_concat {l : List String} {text : String} (nodup : l.Nodup)
    (new : text ∉ l) : (l ++ [text]).Nodup := by
  rw [List.nodup_append]
  refine ⟨nodup, List.nodup_singleton _, ?_⟩
  rintro a member b here rfl
  exact new (List.mem_singleton.mp here ▸ member)

theorem Sorted.admitted (sorted : Sorted lib req target done verdicts p)
    (admits : Admits lib req p p' src user) (imports : Imports lib req src user)
    (absent : emailKey lib src.email ∉ target.emails) (first : emailKey lib src.email ∉ p.seen)
    (seen : emailKey lib src.email ∈ p'.seen) :
    Sorted lib req target (done ++ [src]) (verdicts ++ [none]) p' := by
  have email : user.email = emailKey lib src.email := by
    have same := congrArg SourceUser.email admits.fields
    unfold Preview.imported at same
    exact same
  have newToken : user.token ∉ (p.users.map fun user => user.token) ∧
      user.token ∉ target.tokens := by
    have new := admits.newToken
    rw [sorted.tokens, List.mem_append, List.mem_reverse, not_or] at new
    exact new
  have newUUID : user.uuid ∉ (p.users.map fun user => user.uuid) ∧ user.uuid ∉ target.uuids := by
    have new := admits.newUUID
    rw [sorted.uuids, List.mem_append, List.mem_reverse, not_or] at new
    exact new
  constructor
  case judged => simp [sorted.judged]
  case counted =>
    intro r
    rw [admits.counted, sorted.counted, count_append]
    rfl
  case imported =>
    rw [chosen_append sorted.judged, admits.users]
    exact List.rel_append sorted.imported (List.Forall₂.cons imports List.Forall₂.nil)
  case tokens =>
    rw [admits.tokens, admits.users, sorted.tokens, List.map_append, List.reverse_append]
    rfl
  case uuids =>
    rw [admits.uuids, admits.users, sorted.uuids, List.map_append, List.reverse_append]
    rfl
  all_goals rw [admits.users]
  case seen =>
    intro other member
    rcases List.mem_append.mp member with before | here
    · exact ⟨admits.seen (sorted.seen other before).1, (sorted.seen other before).2⟩
    · rw [List.mem_singleton.mp here, email]
      exact ⟨seen, absent⟩
  case emails =>
    rw [List.map_append]
    apply nodup_concat sorted.emails
    intro member
    obtain ⟨other, before, same⟩ := List.mem_map.mp member
    apply first
    dsimp only at same
    rw [← email, ← same]
    exact (sorted.seen other before).1
  case newTokens =>
    rw [List.map_append]
    exact nodup_concat sorted.newTokens newToken.1
  case newUUIDs =>
    rw [List.map_append]
    exact nodup_concat sorted.newUUIDs newUUID.1
  case foreign =>
    intro other member
    rcases List.mem_append.mp member with before | here
    · exact sorted.foreign other before
    · rw [List.mem_singleton.mp here]
      exact ⟨newToken.2, newUUID.2⟩
  case normal =>
    intro other member
    rcases List.mem_append.mp member with before | here
    · exact sorted.normal other before
    · rw [List.mem_singleton.mp here, email]
      exact ⟨lib.lower_trimSpace_again _, admits.trimmed, admits.lowered⟩

theorem sorted_users
    (returned : req.users.foldlM (visit lib req target) (Progress.start req target draws) = .ok p) :
    ∃ verdicts, Sorted lib req target req.users verdicts p := by
  have start : ∃ verdicts, Sorted lib req target [] verdicts (Progress.start req target draws) :=
    ⟨[], sorted_start draws⟩
  refine foldlM_invariant (I := fun done p => ∃ verdicts, Sorted lib req target done verdicts p)
    ?_ start returned
  rintro done p src p' ⟨verdicts, sorted⟩ visited
  rcases visit_ok visited with ⟨reason, skips⟩ | ⟨user, admits, ordinary, policy, absent, first, seen⟩
  · exact ⟨_, sorted.skipped skips src⟩
  · exact ⟨_, sorted.admitted admits (imports_of_admits admits ordinary policy) absent first seen⟩

theorem buildPreview_ok {built : Built} (returned : buildPreview lib req target draws = .ok built) :
    ∃ p verdicts, Sorted lib req target req.users verdicts p ∧ built.users = p.users ∧
      built.result.counts = { p.counts with importable := p.users.length } := by
  simp only [buildPreview, bind_eq_ok, pure_eq_ok] at returned
  obtain ⟨p, visited, rfl⟩ := returned
  obtain ⟨verdicts, sorted⟩ := sorted_users visited
  exact ⟨p, verdicts, sorted, rfl, rfl⟩

theorem readTargetState_ok {plans : List Plan} {others : List TargetUser}
    (read : readTargetState lib plans others = .ok target) :
    target.emails = (others.map fun user => emailKey lib user.email) ∧
      target.tokens = (others.map fun user => trimSpace user.token) ∧
      target.uuids = (others.map fun user => uuidKey lib user.uuid) := by
  simp only [readTargetState, bind_eq_ok, pure_eq_ok] at read
  obtain ⟨-, -, -, -, rfl⟩ := read
  exact ⟨rfl, rfl, rfl⟩

theorem apart_of_read {plans : List Plan} {others : List TargetUser} {users : List InsertUser}
    (read : readTargetState lib plans others = .ok target)
    (normal : ∀ user ∈ users, trimSpace user.token = user.token ∧
      uuidKey lib user.uuid = user.uuid)
    (absent : ∀ user ∈ users, emailKey lib user.email ∉ target.emails ∧
      user.token ∉ target.tokens ∧ user.uuid ∉ target.uuids) : Apart lib users others := by
  obtain ⟨emails, tokens, uuids⟩ := readTargetState_ok read
  intro user member other there
  obtain ⟨email, token, uuid⟩ := absent user member
  obtain ⟨trimmed, lowered⟩ := normal user member
  rw [trimmed, lowered]
  rw [emails] at email
  rw [tokens] at token
  rw [uuids] at uuid
  constructor
  · exact fun same => email (List.mem_map.mpr ⟨other, there, same.symm⟩)
  constructor
  · exact fun same => token (List.mem_map.mpr ⟨other, there, same.symm⟩)
  · exact fun same => uuid (List.mem_map.mpr ⟨other, there, same.symm⟩)

theorem verifyTarget_ok {p : StoredPreview} {resetMethod : Int}
    (verified : verifyTarget lib p target resetMethod = .ok ()) :
    ∀ user ∈ p.users, emailKey lib user.email ∉ target.emails ∧ user.token ∉ target.tokens ∧
      user.uuid ∉ target.uuids := by
  simp only [verifyTarget, bind_eq_ok, ensure_eq_ok] at verified
  obtain ⟨-, -, -, -, apart⟩ := verified
  exact apart

theorem length_eq_counts (verdicts : List (Option Reason)) : verdicts.length =
    (([none, some .skippedPrivileged, some .skippedExisting, some .skippedDuplicateEmail,
      some .skippedLockedBalance, some .skippedPlan, some .invalidEmail,
      some .unsupportedPassword, some .invalidValues, some .unmappedPlan] :
        List (Option Reason)).map fun verdict => verdicts.count verdict).sum := by
  induction verdicts with
  | nil => rfl
  | cons verdict rest ih =>
    rw [List.length_cons, ih]
    rcases verdict with none | reason
    · simp [List.count_cons]
      omega
    · cases reason <;> simp [List.count_cons] <;> omega

end

/-- A preview counts every source user once and imports only safe users; if the target is found
unchanged later, they are still apart from its users. -/
theorem preview_safe (lib : Library) (req : Request) (plans : List Plan)
    (others : List TargetUser) (draws : List Draw) {target : TargetState} {built : Built}
    (read : readTargetState lib plans others = .ok target)
    (returned : buildPreview lib req target draws = .ok built) :
    Safe lib req others built ∧
      ∀ (plans' : List Plan) (others' : List TargetUser) (target' : TargetState)
        (stored current : Int), readTargetState lib plans' others' = .ok target' →
          verifyTarget lib ⟨built.users, built.plans, stored⟩ target' current = .ok () →
            Apart lib built.users others' := by
  obtain ⟨p, verdicts, sorted, users, counts⟩ := buildPreview_ok returned
  have normal : ∀ user ∈ built.users, trimSpace user.token = user.token ∧
      uuidKey lib user.uuid = user.uuid := by
    rw [users]
    exact fun user member => (sorted.normal user member).2
  have absent : ∀ user ∈ built.users, emailKey lib user.email ∉ target.emails ∧
      user.token ∉ target.tokens ∧ user.uuid ∉ target.uuids := by
    rw [users]
    intro user member
    rw [(sorted.normal user member).1]
    exact ⟨(sorted.seen user member).2, sorted.foreign user member⟩
  have counted : ∀ verdict, built.result.counts.of verdict = verdicts.count verdict := by
    rw [counts]
    rintro (_ | reason)
    · exact (sorted.imported.length_eq.symm.trans (length_chosen sorted.judged))
    · rw [← sorted.counted]
      cases reason <;> rfl
  refine ⟨?_, fun plans' others' target' stored current read' verified =>
    apart_of_read read' normal (verifyTarget_ok verified)⟩
  constructor
  case partition => exact ⟨verdicts, sorted.judged, counted, users ▸ sorted.imported⟩
  case total =>
    rw [← sorted.judged, length_eq_counts]
    simp only [List.map_cons, List.map_nil, ← counted]
    rfl
  case emails =>
    rw [users, List.map_congr_left fun user member => (sorted.normal user member).1]
    exact sorted.emails
  case tokens =>
    rw [users, List.map_congr_left fun user member => (sorted.normal user member).2.1]
    exact sorted.newTokens
  case uuids =>
    rw [users, List.map_congr_left fun user member => (sorted.normal user member).2.2]
    exact sorted.newUUIDs
  case apart => exact apart_of_read read normal absent

def sampleLibrary : Library where
  toStandardLibrary := ClientEntry.asciiLibrary
  bcryptCost := fun _ => some 10

def hash : String := "$2a$10$" ++ String.ofList (List.replicate 53 'x')

/-- A user of the source site with this e-mail and this token. -/
def sourceUser (id : Int) (email token : String) : SourceUser :=
  ⟨id, email, hash, "", token, "", 5, 0, 7, 0, 0, 0, 0, none, none, 0, 0, 0, 0, 0⟩

def moving : Request where
  users := [sourceUser 1 " Ada@example.com" "a", sourceUser 2 "ada@example.com" "b",
    sourceUser 3 "bob@example.com" "c", { sourceUser 4 "eve@example.com" "d" with isAdmin := 1 }]
  mappings := fun _ => none
  policy := "to_balance"
  regenerate := ⟨false, false⟩

def draw (n : Fin 256) : Draw := ⟨List.replicate 16 n, rfl⟩

def present : List TargetUser := [⟨"bob@example.com", "t", "u"⟩]

/-- Of four users one is imported, with the locked balance added. -/
theorem preview_of_four :
    ∃ target built, readTargetState sampleLibrary [] present = .ok target ∧
      buildPreview sampleLibrary moving target [draw 1, draw 2] = .ok built ∧
      (built.users.map fun user => (user.email, user.balance)) = [("ada@example.com", 12)] ∧
      Safe sampleLibrary moving present built := by
  refine ⟨_, _, rfl, rfl, by decide +kernel, ?_⟩
  exact (preview_safe sampleLibrary moving [] present [draw 1, draw 2] rfl rfl).1

end ForestPanel.UserMigration.Preview
