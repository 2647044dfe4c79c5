import Mathlib
import ForestPanel.Lib.Transition
import ForestPanel.SupportEntry.Membership
import ForestPanel.SupportEntry.Requests

/-!
# Changing the membership of a user

`ChangeSupportEntry` is one transaction under locks, so it is one step; a transaction that fails
leaves nothing behind. What an answer shows besides the membership is read by functions of the
library: the scopes of the user, with the rules that apply to it, and its entitlement.
-/
namespace ForestPanel.SupportEntry

open ClientEntry Outcome Relational Transition

inductive SupportError
  | forbidden
  | notFound
  | invalid (detail : String)
  | conflict (detail : String)
  | failed (text : String)
deriving DecidableEq, Repr

/-- The roles of a row of `v2_user`. -/
structure Account where
  id : Int
  banned : Int
  isAdmin : Int
  isStaff : Int
deriving DecidableEq

structure OverrideRow where
  userID : Int
  sourcePolicyID : Int
  targetPolicyID : Option Int
  targetGroupID : Option Int
  targetKey : String
  active : Int
  expiresAt : Option Int
  version : Int
  updatedBy : Int
  updatedAt : Int
deriving DecidableEq

structure SupportOperationState where
  membershipGroups : List SupportEntryMembershipGroup
  hasLegacyOverride : Bool
  targetKey : String
  targetName : String
  entryHost : String
  active : Bool
  expiresAt : Int
  version : Int
  sourceName : String
deriving DecidableEq

abbrev OverrideTable :=
  Table (fun o : OverrideRow => (o.userID, o.sourcePolicyID)) fun o => (o.userID, o.sourcePolicyID)

structure SupportBase where
  rules : RuleBase
  accounts : Table Account.id Account.id
  overrides : OverrideTable
  log : RequestLog SupportOperationState

structure SupportEntryChangeRequest where
  userID : Int
  sourcePolicyID : Int
  targetKey : String
  restore : Bool
  reason : String
  expiresAt : Int
  version : Int
  requestID : String
  ua : String
deriving DecidableEq

/-- What an operation reads besides the tables of the rules. `digest` and `hash` are hashes over
JSON texts, `lowerTrim` is the `LOWER(TRIM(…))` of the database, under which texts with one normal
form are one text; `ρ` and `ε` are what scopes and entitlements show. -/
structure SupportLibrary (ρ ε : Type) extends FoldLibrary where
  digest : String → List VersionPolicy → List SupportEntryOverride → Int
  hash : SupportEntryChangeRequest → String
  lowerTrim : String → String
  lowerTrim_normal : ∀ a b, toStandardLibrary.lower (trimSpace a) =
    toStandardLibrary.lower (trimSpace b) → lowerTrim a = lowerTrim b
  scopes : SupportBase → Int → String → Int → Except SupportError (ρ × (Int → Bool))
  entitlement : SupportBase → Int → Except SupportError ε

structure SupportEntryPreview (ρ : Type) where
  user : UserRow
  shown : ρ
  membership : SupportEntryMembership

structure SupportUserResult (ρ ε : Type) where
  preview : SupportEntryPreview ρ
  entitlement : ε

def requestIDCharacter (c : Char) : Bool :=
  ('A' ≤ c && c ≤ 'Z') || ('a' ≤ c && c ≤ 'z') || ('0' ≤ c && c ≤ '9') || c = '_' || c = '.' ||
    c = ':' || c = '-'

/-- `^[A-Za-z0-9_.:-]{1,80}$` -/
def supportRequestIDPattern (id : String) : Bool :=
  1 ≤ id.length && id.length ≤ 80 && id.toList.all requestIDCharacter

def normalizeSupportChange (req : SupportEntryChangeRequest) :
    Except SupportError SupportEntryChangeRequest :=
  let req := { req with
    targetKey := trimSpace req.targetKey
    reason := trimSpace req.reason
    requestID := trimSpace req.requestID }
  if req.userID ≤ 0 ∨ req.sourcePolicyID ≠ 0 ∨ req.expiresAt ≠ 0 ∨ req.version < 0 ∨
      9007199254740992 ≤ req.version ∨ supportRequestIDPattern req.requestID = false ∨
      req.reason = "" ∨ 500 < req.reason.length ∨ 1024 < req.ua.utf8ByteSize ∨
      255 < req.targetKey.utf8ByteSize ∨ req.expiresAt < 0 then .error (.invalid "")
  else if req.restore = true then
    if req.targetKey ≠ "" ∨ req.expiresAt ≠ 0 then .error (.invalid "恢复自动分配不接受目标或有效期")
    else .ok req
  else if req.targetKey = "" then .error (.invalid "")
  else .ok req

def SupportBase.isStaff (base : SupportBase) (actorID : Int) : Bool :=
  (base.accounts.find? actorID).any fun a => a.banned = 0 && a.isAdmin = 0 && a.isStaff = 1

/-- A user that is neither an administrator nor an employee. -/
def SupportBase.isOrdinary (base : SupportBase) (userID : Int) : Bool :=
  (base.accounts.find? userID).any fun a => a.isAdmin = 0 && a.isStaff = 0

def OverrideRow.record (o : OverrideRow) : SupportEntryOverride :=
  ⟨o.sourcePolicyID, o.targetPolicyID.getD 0, o.targetGroupID.getD 0, o.targetKey, o.active ≠ 0,
    o.expiresAt.getD 0, o.version⟩

def loadSupportEntryOverrides (base : SupportBase) (userID : Int) : List SupportEntryOverride :=
  ((base.overrides.rows.filter fun o => o.userID = userID).insertionSort
    fun a b => a.sourcePolicyID ≤ b.sourcePolicyID).map OverrideRow.record

section

variable {ρ ε : Type} (lib : SupportLibrary ρ ε)

def supportChangeHash (req : SupportEntryChangeRequest) : String :=
  lib.hash { req with requestID := "" }

def previewSupportEntries (base : SupportBase) (userID : Int) (ua : String) (now : Int) :
    Except SupportError (SupportEntryPreview ρ) := do
  let user ← require (base.rules.users.find? userID) .notFound
  let (shown, effective) ← lib.scopes base userID ua now
  let membership ← (loadSupportEntryMembership lib.toFoldLibrary lib.digest base.rules
    (subscriptionSubject user ua now) effective (loadSupportEntryOverrides base userID)
    now).mapError .failed
  return { user, shown, membership }

def supportUserResultWithEntitlement (base : SupportBase) (preview : SupportEntryPreview ρ) :
    Except SupportError (SupportUserResult ρ ε) := do
  let entitlement ← lib.entitlement base preview.user.id
  return { preview, entitlement }

/-- `UPDATE v2_client_entry_user_policy SET conditions = … WHERE id = …`. -/
def updateConditions (rules : RuleBase) (policyID : Int) (encoded : String) (now : Int) : RuleBase :=
  { rules with
    policies := rules.policies.updateWhere (fun p => p.id = policyID && PolicyRow.hasEntry p)
      (fun p => { p with conditions := encoded, updatedAt := now }) fun _ => ⟨rfl, rfl⟩ }

/-- One round of the loop over the policies, and whether something was changed so far. -/
def updateList (email : String) (chosen : Option Int) (now : Int) (progress : RuleBase × Bool)
    (policy : SupportEntryMembershipPolicy) : Except SupportError (RuleBase × Bool) := do
  let update ← (supportEntryPolicyEmailUpdate lib.toFoldLibrary policy email
    (chosen = some policy.policyID)).mapError .failed
  match update with
  | none => return progress
  | some encoded => return (updateConditions progress.1 policy.policyID encoded now, true)

def clearOverrides (overrides : OverrideTable) (userID actorID now : Int) : OverrideTable :=
  overrides.updateWhere (fun o => o.userID = userID && o.active = 1)
    (fun o => { o with active := 0, version := o.version + 1, updatedBy := actorID, updatedAt := now })
    fun _ => ⟨rfl, rfl⟩

def supportMembershipState (membership : SupportEntryMembership) : SupportOperationState where
  membershipGroups := membership.currentGroups
  hasLegacyOverride := membership.hasLegacyOverride
  targetKey := ""
  targetName := ""
  entryHost := ""
  active := false
  expiresAt := 0
  version := membership.version
  sourceName := "指定邮箱分组"

def withTarget (state : SupportOperationState) : Option SupportEntryTarget → SupportOperationState
  | none => state
  | some target => { state with
      targetKey := target.key
      targetName := target.name
      entryHost := target.entryHost
      active := true }

/-- The group that is asked for, among those the user may be put into. -/
def chooseTarget (membership : SupportEntryMembership) (req : SupportEntryChangeRequest) :
    Except SupportError (Option SupportEntryTarget) :=
  if req.restore = true then .ok none
  else
    match membership.targets.find? fun candidate => candidate.key = req.targetKey with
    | none => .error (.invalid "该分组不支持指定邮箱、已停用或用户不满足其他条件")
    | some target =>
      if target.policyID ≤ 0 then
        .error (.invalid "该分组不支持指定邮箱、已停用或用户不满足其他条件")
      else .ok (some target)

def emailCollisions (base : SupportBase) (user : UserRow) : Nat :=
  base.rules.users.rows.countP fun other =>
    lib.lowerTrim other.email = lib.lowerTrim user.email && other.id ≠ user.id

def applyChange (base : SupportBase) (actorID : Int) (req : SupportEntryChangeRequest) (now : Int) :
    Except SupportError (SupportUserResult ρ ε × SupportBase) := do
  let preview ← previewSupportEntries lib base req.userID req.ua now
  let membership := preview.membership
  ensure (req.version = membership.version) (.conflict "")
  let target ← chooseTarget membership req
  ensure (emailCollisions lib base preview.user = 0)
    (.invalid "存在忽略大小写或前后空格后相同的邮箱账号，请管理员先处理邮箱冲突")
  let (rules, listed) ← membership.policies.foldlM
    (updateList lib preview.user.email (target.map fun t => t.policyID) now) (base.rules, false)
  let ended := base.overrides.rows.any fun o => o.userID = req.userID && o.active = 1
  let changed := { base with
    rules
    overrides := clearOverrides base.overrides req.userID actorID now }
  ensure ((listed || ended) = true) (.invalid "当前已是所选分组或已恢复默认，无需重复操作")
  let after ← previewSupportEntries lib changed req.userID req.ua now
  let operation : Operation SupportOperationState :=
    { id := 0
      actorID
      targetUserID := req.userID
      sourcePolicyID := 0
      requestID := req.requestID
      reason := req.reason
      beforeState := ⟨"entry_membership", "", supportMembershipState membership⟩
      afterState := ⟨"entry_membership", supportChangeHash lib req,
        withTarget (supportMembershipState after.membership) target⟩
      createdAt := now }
  let log ← require (base.log.record? operation) (.failed "duplicate operation")
  let changed := { changed with log }
  let result ← supportUserResultWithEntitlement lib changed after
  return (result, changed)

def changeSupportEntry (base : SupportBase) (actorID : Int) (req : SupportEntryChangeRequest)
    (now : Int) : Except SupportError (SupportUserResult ρ ε × SupportBase) := do
  ensure (0 < actorID) .forbidden
  ensure (base.isStaff actorID = true) .forbidden
  let req ← normalizeSupportChange req
  ensure (req.userID ≠ actorID) .forbidden
  ensure (base.isOrdinary req.userID = true) .notFound
  match base.log.saved (actorID, req.requestID) with
  | some (kind, hash) => do
    ensure (kind = "entry_membership" ∧ hash = supportChangeHash lib req)
      (.conflict "request_id 已被其他请求使用")
    let preview ← previewSupportEntries lib base req.userID req.ua now
    let result ← supportUserResultWithEntitlement lib base preview
    return (result, base)
  | none => applyChange lib base actorID req now

inductive Act
  | change (actorID : Int) (req : SupportEntryChangeRequest) (now : Int)
  /-- A change of another kind, recorded in the same log. -/
  | other (operation : Operation SupportOperationState)
  | clear (throughID : Int)
  | cleanup (cutoff : Int)
  /-- Everything else that writes the rules, the users and the overrides. -/
  | edit (rules : RuleBase) (accounts : Table Account.id Account.id) (overrides : OverrideTable)

def step (base : SupportBase) : Act → SupportBase
  | .change actorID req now => commit base ((changeSupportEntry lib base actorID req now).map Prod.snd)
  | .other operation =>
    if base.log.saved operation.key = none then
      { base with log := (base.log.record? operation).getD base.log }
    else base
  | .clear throughID => { base with log := base.log.clear throughID }
  | .cleanup cutoff => { base with log := base.log.cleanup cutoff }
  | .edit rules accounts overrides => { base with rules, accounts, overrides }

end

end ForestPanel.SupportEntry
