import ForestPanel.Order.Subscription
import ForestPanel.SupportEntry.Change

/-!
# Changing the entitlement of a user

`ChangeSupportEntitlement` locks the row of the user before it reads it, and is one transaction: one
step. It writes the columns that differ, and no others, so what else is kept in the row is a
parameter.
-/
namespace ForestPanel.SupportEntitlement

open Outcome Relational SupportEntry Transition

/-- A row of `v2_user`; `ρ` holds the columns that are neither read nor written. -/
structure UserRow (ρ : Type) where
  id : Int
  banned : Int
  isAdmin : Int
  isStaff : Int
  planID : Option Int
  groupID : Option Int
  transferEnable : Int
  u : Int
  d : Int
  expiredAt : Option Int
  deviceLimit : Option Int
  speedLimit : Option Int
  updatedAt : Int
  rest : ρ
deriving DecidableEq

structure PlanRow where
  id : Int
  name : String
  groupID : Int
  transferEnable : Int
  deviceLimit : Option Int
  speedLimit : Option Int
deriving DecidableEq

structure SupportEntitlementSnapshot where
  userID : Int
  planID : Option Int
  planName : String
  groupID : Option Int
  transferEnable : Int
  u : Int
  d : Int
  expiredAt : Option Int
  deviceLimit : Option Int
  speedLimit : Option Int
  version : String
deriving DecidableEq

/-- The log is shared with the changes of entries. -/
structure EntitlementBase (ρ : Type) where
  users : Table (@UserRow.id ρ) UserRow.id
  plans : Table PlanRow.id PlanRow.id
  log : RequestLog (SupportEntitlementSnapshot ⊕ SupportOperationState)

/-- What a raw text gives that is read as a time or `null`. -/
inductive RawExpiry
  | invalid
  | value (expiry : Option Int)
deriving DecidableEq

structure SupportEntitlementChangeRequest where
  userID : Int
  planID : Option Int
  transferEnable : Option Int
  /-- Absent: no change. -/
  expiredAt : Option RawExpiry
  resetUsage : Bool
  reason : String
  requestID : String
  expected : String
deriving DecidableEq

def supportMaxTrafficBytes : Int := 9007199254740991
def supportMaxExpiryTimestamp : Int := 253402300799

def hexCharacter (c : Char) : Bool := ('0' ≤ c && c ≤ '9') || ('a' ≤ c && c ≤ 'f')

/-- A SHA-256 sum as hexadecimal digits. -/
def hexSum (text : String) : Bool := text.utf8ByteSize = 64 && text.toList.all hexCharacter

/-- SHA-256 over the JSON text of a snapshot and of a request. -/
structure EntitlementLibrary where
  digest : SupportEntitlementSnapshot → String
  digest_hex : ∀ state, hexSum (digest state) = true
  hash : SupportEntitlementChangeRequest → String

def expiryAllowed : Option RawExpiry → Bool
  | none => true
  | some .invalid => false
  | some (.value none) => true
  | some (.value (some time)) => 0 < time && time ≤ supportMaxExpiryTimestamp

def normalizeSupportEntitlementChange (req : SupportEntitlementChangeRequest) :
    Except SupportError SupportEntitlementChangeRequest :=
  let req := { req with reason := trimSpace req.reason, requestID := trimSpace req.requestID }
  if req.userID ≤ 0 ∨ req.reason = "" ∨ 500 < req.reason.length ∨
      supportRequestIDPattern req.requestID = false ∨ hexSum req.expected = false then
    .error (.invalid "")
  else if req.planID.any (· ≤ 0) = true then .error (.invalid "请选择有效套餐")
  else if req.transferEnable.any (fun n => n < 0 || supportMaxTrafficBytes < n) = true then
    .error (.invalid "总流量配额无效")
  else if expiryAllowed req.expiredAt = false then
    .error (.invalid "到期时间应为时间戳或 null（永久）")
  else if req.planID = none ∧ req.transferEnable = none ∧ req.expiredAt = none ∧
      req.resetUsage = false then .error (.invalid "未选择要修改的权益")
  else .ok req

/-- A column that the update sets. -/
inductive Write
  | planID (id : Int)
  | groupID (id : Option Int)
  | deviceLimit (limit : Option Int)
  | speedLimit (limit : Option Int)
  | transferEnable (bytes : Int)
  | expiredAt (time : Option Int)
  | u (bytes : Int)
  | d (bytes : Int)
  | updatedAt (time : Int)

section

variable {ρ : Type}

def EntitlementBase.isStaff (base : EntitlementBase ρ) (actorID : Int) : Bool :=
  (base.users.find? actorID).any fun a => a.banned = 0 && a.isAdmin = 0 && a.isStaff = 1

/-- A user that is neither an administrator nor an employee. -/
def EntitlementBase.isOrdinary (base : EntitlementBase ρ) (userID : Int) : Bool :=
  (base.users.find? userID).any fun a => a.isAdmin = 0 && a.isStaff = 0

def Write.apply (row : UserRow ρ) : Write → UserRow ρ
  | .planID id => { row with planID := some id }
  | .groupID id => { row with groupID := id }
  | .deviceLimit limit => { row with deviceLimit := limit }
  | .speedLimit limit => { row with speedLimit := limit }
  | .transferEnable bytes => { row with transferEnable := bytes }
  | .expiredAt time => { row with expiredAt := time }
  | .u bytes => { row with u := bytes }
  | .d bytes => { row with d := bytes }
  | .updatedAt time => { row with updatedAt := time }

def applyWrites (row : UserRow ρ) (writes : List Write) : UserRow ρ := writes.foldl Write.apply row

theorem applyWrites_id (row : UserRow ρ) (writes : List Write) :
    (applyWrites row writes).id = row.id := by
  induction writes generalizing row with
  | nil => rfl
  | cons write writes ih =>
    rw [applyWrites, List.foldl_cons]
    refine (ih (Write.apply row write)).trans ?_
    cases write <;> rfl

/-- `UPDATE v2_user SET … WHERE id = $1`. -/
def updateUser (users : Table (@UserRow.id ρ) UserRow.id) (userID : Int) (writes : List Write) :
    Table (@UserRow.id ρ) UserRow.id :=
  users.updateWhere (fun row => row.id = userID) (fun row => applyWrites row writes)
    fun row => ⟨applyWrites_id row writes, applyWrites_id row writes⟩

variable (lib : EntitlementLibrary)

/-- Names and counters may change without a conflict. -/
def supportEntitlementVersion (state : SupportEntitlementSnapshot) : String :=
  lib.digest { state with planName := "", version := "", u := 0, d := 0 }

/-- An expiry that is zero or negative is permanent. -/
def shownExpiry (expiredAt : Option Int) : Option Int := expiredAt.filter (0 < ·)

def scanned (plans : Table PlanRow.id PlanRow.id) (row : UserRow ρ) :
    SupportEntitlementSnapshot where
  userID := row.id
  planID := row.planID
  planName := ((row.planID.bind plans.find?).map PlanRow.name).getD ""
  groupID := row.groupID
  transferEnable := row.transferEnable
  u := row.u
  d := row.d
  expiredAt := shownExpiry row.expiredAt
  deviceLimit := row.deviceLimit
  speedLimit := row.speedLimit
  version := ""

def loadSupportEntitlementSnapshot (base : EntitlementBase ρ) (userID : Int) :
    Except SupportError SupportEntitlementSnapshot := do
  let row ← require ((base.users.find? userID).filter fun a => a.isAdmin = 0 && a.isStaff = 0)
    .notFound
  let result := scanned base.plans row
  return { result with version := supportEntitlementVersion lib result }

def supportEntitlementChangeHash (req : SupportEntitlementChangeRequest) : String :=
  lib.hash { req with requestID := "" }

/-- The plan part: nothing, where the user is on that plan already. -/
def changePlan (plans : Table PlanRow.id PlanRow.id) (req : SupportEntitlementChangeRequest)
    (before : SupportEntitlementSnapshot) :
    Except SupportError (SupportEntitlementSnapshot × List Write) :=
  match req.planID.filter fun id => before.planID ≠ some id with
  | none => .ok (before, [])
  | some id => do
    let plan ← require (plans.find? id) (.invalid "套餐不存在")
    let quota := planTransferEnableBytes plan.transferEnable
    ensure (0 ≤ quota ∧ quota ≤ supportMaxTrafficBytes) (.invalid "套餐配额无效")
    let after := { before with
      planID := some plan.id
      planName := plan.name
      groupID := some plan.groupID
      deviceLimit := plan.deviceLimit
      speedLimit := plan.speedLimit
      transferEnable := quota }
    return (after, [.planID plan.id, .groupID (some plan.groupID), .deviceLimit plan.deviceLimit,
      .speedLimit plan.speedLimit])

def changeQuota (req : SupportEntitlementChangeRequest) (before : SupportEntitlementSnapshot)
    (progress : SupportEntitlementSnapshot × List Write) :
    SupportEntitlementSnapshot × List Write :=
  let after := { progress.1 with
    transferEnable := req.transferEnable.getD progress.1.transferEnable }
  (after, progress.2 ++
    if after.transferEnable ≠ before.transferEnable then [.transferEnable after.transferEnable]
    else [])

def changeExpiry (req : SupportEntitlementChangeRequest) (before : SupportEntitlementSnapshot)
    (progress : SupportEntitlementSnapshot × List Write) :
    SupportEntitlementSnapshot × List Write :=
  match req.expiredAt with
  | some (.value expiry) =>
    ({ progress.1 with expiredAt := expiry },
      progress.2 ++ if before.expiredAt ≠ expiry then [.expiredAt expiry] else [])
  | _ => progress

def resetUsage (req : SupportEntitlementChangeRequest) (before : SupportEntitlementSnapshot)
    (progress : SupportEntitlementSnapshot × List Write) :
    SupportEntitlementSnapshot × List Write :=
  if req.resetUsage = true ∧ (before.u ≠ 0 ∨ before.d ≠ 0) then
    ({ progress.1 with u := 0, d := 0 }, progress.2 ++ [.u 0, .d 0])
  else progress

def changes (plans : Table PlanRow.id PlanRow.id) (req : SupportEntitlementChangeRequest)
    (before : SupportEntitlementSnapshot) :
    Except SupportError (SupportEntitlementSnapshot × List Write) :=
  (changePlan plans req before).map fun planned =>
    resetUsage req before (changeExpiry req before (changeQuota req before planned))

def applyEntitlement (base : EntitlementBase ρ) (actorID : Int)
    (req : SupportEntitlementChangeRequest) (now : Int) :
    Except SupportError (SupportEntitlementSnapshot × EntitlementBase ρ) := do
  let before ← loadSupportEntitlementSnapshot lib base req.userID
  ensure (req.expected = before.version) (.conflict "")
  let (after, writes) ← changes base.plans req before
  ensure (writes.isEmpty = false) (.invalid "权益未变化，无需重复保存")
  let users := updateUser base.users req.userID (writes ++ [.updatedAt now])
  let after := { after with version := supportEntitlementVersion lib after }
  let operation : Operation (SupportEntitlementSnapshot ⊕ SupportOperationState) :=
    { id := 0
      actorID
      targetUserID := req.userID
      sourcePolicyID := 0
      requestID := req.requestID
      reason := req.reason
      beforeState := ⟨"entitlement", "", .inl before⟩
      afterState := ⟨"entitlement", supportEntitlementChangeHash lib req, .inl after⟩
      createdAt := now }
  let log ← require (base.log.record? operation) (.failed "duplicate operation")
  return (after, { base with users, log })

def changeSupportEntitlement (base : EntitlementBase ρ) (actorID : Int)
    (req : SupportEntitlementChangeRequest) (now : Int) :
    Except SupportError (SupportEntitlementSnapshot × EntitlementBase ρ) := do
  ensure (0 < actorID) .forbidden
  ensure (base.isStaff actorID = true) .forbidden
  let req ← normalizeSupportEntitlementChange req
  ensure (req.userID ≠ actorID) .forbidden
  ensure (base.isOrdinary req.userID = true) .notFound
  match base.log.saved (actorID, req.requestID) with
  | some (kind, hash) => do
    ensure (kind = "entitlement" ∧ hash = supportEntitlementChangeHash lib req)
      (.conflict "request_id 已被其他请求使用")
    let current ← loadSupportEntitlementSnapshot lib base req.userID
    return (current, base)
  | none => applyEntitlement lib base actorID req now

inductive Act (ρ : Type)
  | change (actorID : Int) (req : SupportEntitlementChangeRequest) (now : Int)
  /-- Traffic of a user is counted. -/
  | count (userID up down : Int)
  /-- A change of another kind, recorded in the same log. -/
  | other (operation : Operation (SupportEntitlementSnapshot ⊕ SupportOperationState))
  | clear (throughID : Int)
  | cleanup (cutoff : Int)
  /-- Everything else that writes the users and the plans. -/
  | edit (users : Table (@UserRow.id ρ) UserRow.id) (plans : Table PlanRow.id PlanRow.id)

/-- `UPDATE v2_user SET u = u + $1, d = d + $2 WHERE id = $3`. -/
def countTraffic (users : Table (@UserRow.id ρ) UserRow.id) (userID up down : Int) :
    Table (@UserRow.id ρ) UserRow.id :=
  users.updateWhere (fun row => row.id = userID)
    (fun row => { row with u := row.u + up, d := row.d + down }) fun _ => ⟨rfl, rfl⟩

def step (base : EntitlementBase ρ) : Act ρ → EntitlementBase ρ
  | .change actorID req now =>
    commit base ((changeSupportEntitlement lib base actorID req now).map Prod.snd)
  | .count userID up down => { base with users := countTraffic base.users userID up down }
  | .other operation =>
    if base.log.saved operation.key = none then
      { base with log := (base.log.record? operation).getD base.log }
    else base
  | .clear throughID => { base with log := base.log.clear throughID }
  | .cleanup cutoff => { base with log := base.log.cleanup cutoff }
  | .edit users plans => { base with users, plans }

end

end ForestPanel.SupportEntitlement
