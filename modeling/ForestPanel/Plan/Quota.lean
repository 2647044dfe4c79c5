import ForestPanel.Lib.Double
import ForestPanel.Lib.Machine
import ForestPanel.Order.Subscription
import ForestPanel.Store.Text

/-!
# Plans and their quotas

`SavePlan`, and every operation that puts a user on a plan, with the 64-bit
arithmetic on quotas as the code does it. A quota is entered in GiB or in bytes;
`SavePlan` stores bytes.
-/
namespace ForestPanel.Quota

open Decimal Double Machine Outcome Relational

def planTrafficGiB : Int := 1073741824

/-- The same in the packages `admin` and `user`. -/
def planTransferEnableBytes (value : Int) : Checked Int :=
  if value ≤ 0 then pure 0
  else if planTrafficGiB ≤ value then pure value
  else mul value planTrafficGiB

structure PlanSaveRequest where
  id : Option Int
  name : String
  groupID : Int
  transferEnable : Int
  deviceLimit : Option Int
  shown : Option Int
  renew : Option Int
  monthPrice : Option Int
  quarterPrice : Option Int
  halfYearPrice : Option Int
  yearPrice : Option Int
  twoYearPrice : Option Int
  threeYearPrice : Option Int
  onetimePrice : Option Int
  resetPrice : Option Int
  capacityLimit : Option Int
  speedLimit : Option Int
  forceUpdate : Bool
deriving Repr, DecidableEq

/-- The row of a new plan; `newID` is the next value of the sequence. -/
def insertedPlan (newID : Int) (req : PlanSaveRequest) (transferEnable : Int) : PlanRecord where
  id := newID
  groupID := req.groupID
  transferEnable := transferEnable
  deviceLimit := req.deviceLimit
  speedLimit := req.speedLimit
  shown := req.shown.getD 0
  renew := req.renew.getD 1
  monthPrice := req.monthPrice
  quarterPrice := req.quarterPrice
  halfYearPrice := req.halfYearPrice
  yearPrice := req.yearPrice
  twoYearPrice := req.twoYearPrice
  threeYearPrice := req.threeYearPrice
  onetimePrice := req.onetimePrice
  resetPrice := req.resetPrice
  capacityLimit := req.capacityLimit

/-- The columns of `UPDATE v2_plan`. -/
def updatedPlan (req : PlanSaveRequest) (transferEnable : Int) (plan : PlanRecord) : PlanRecord :=
  { insertedPlan plan.id req transferEnable with
    shown := req.shown.getD plan.shown
    renew := req.renew.getD plan.renew }

/-- The columns of `UPDATE v2_user` under `ForceUpdate`. -/
def forcedUser (req : PlanSaveRequest) (transferEnable : Int) (user : UserRecord) : UserRecord :=
  { user with
    groupID := some req.groupID
    transferEnable := transferEnable
    deviceLimit := req.deviceLimit
    speedLimit := req.speedLimit }

def updatePlan (id : Int) (req : PlanSaveRequest) (db : Db) : Checked Db := do
  let transferEnable ← planTransferEnableBytes req.transferEnable
  let forced ← planTransferEnableBytes req.transferEnable
  let users := db.users.updateWhere (fun user => req.forceUpdate && user.planID = some id)
    (forcedUser req forced) fun _ => ⟨rfl, rfl⟩
  let plans := db.plans.updateWhere (fun plan => plan.id = id)
    (updatedPlan req transferEnable) fun _ => ⟨rfl, rfl⟩
  pure { db with users, plans }

def savePlan (newID : Int) (req : PlanSaveRequest) (db : Db) :
    Except ServiceError (Checked Db) := do
  ensure (trimSpace req.name ≠ "") (.requestFailed "套餐名称不能为空")
  match req.id with
  | none =>
    let transferEnable := planTransferEnableBytes req.transferEnable
    let plans ← require (db.plans.insert? (insertedPlan newID req transferEnable.value))
      (.requestFailed "创建失败")
    pure ⟨{ db with plans }, transferEnable.exact⟩
  | some id =>
    ensure (db.plans.find? id).isSome (.requestFailed "该订阅不存在")
    pure (updatePlan id req db)

/-- The row, or a later one with its quota, was written by `SavePlan`. -/
def Saved (plan : PlanRecord) : Prop :=
  ∃ newID req db after row, Fits req.transferEnable ∧ savePlan newID req db = .ok after ∧
    after.value.plans.find? (req.id.getD newID) = some row ∧
    plan.transferEnable = row.transferEnable

/-- The `transferEnable` of `applyOrderOneTime`. -/
def carriedQuota (order : OrderRecord) (plan : PlanRecord) (userRow : UserRecord) : Checked Int :=
  match order.surplusOrderIDs with
  | some _ => pure plan.transferEnable
  | none => do
    let used ← add userRow.u userRow.d
    let notUsed ← sub userRow.transferEnable used
    let notUsedTraffic := (Float64.ofInt notUsed).divBy (2 ^ 30)
    if notUsedTraffic.positive ∧ userRow.expiredAt.isNone then
      add plan.transferEnable notUsedTraffic.toInt64
    else pure plan.transferEnable

/-- `applyOrderOneTime`, with its arithmetic. -/
def applyOrderOneTime (order : OrderRecord) (plan : PlanRecord) (userRow : UserRecord) :
    Checked UserRecord := do
  let transferEnable ← carriedQuota order plan userRow
  let bytes ← planTransferEnableBytes transferEnable
  pure { userRow with
    u := 0
    d := 0
    transferEnable := bytes
    deviceLimit := plan.deviceLimit
    planID := some plan.id
    groupID := some plan.groupID
    expiredAt := none }

/-- `applyOrderPeriod`, with its arithmetic. -/
def applyOrderPeriod (rt : Runtime) (now : Int) (order : OrderRecord) (plan : PlanRecord)
    (userRow : UserRecord) : Checked UserRecord := do
  let bytes ← planTransferEnableBytes plan.transferEnable
  pure { ForestPanel.applyOrderPeriod rt now order plan userRow with transferEnable := bytes }

/-- The row `openOrderTx` writes for an order of a plan. -/
def applyOpenedOrder (rt : Runtime) (cfg : Config) (now : Int) (order : OrderRecord)
    (plan : PlanRecord) (userRow : UserRecord) : Checked UserRecord := do
  let applied ← match order.period with
    | .onetimePrice => applyOrderOneTime order plan userRow
    | .resetPrice => pure { userRow with u := 0, d := 0 }
    | _ => applyOrderPeriod rt now order plan userRow
  pure { applyOrderCompletionEvent cfg order.type applied with speedLimit := plan.speedLimit }

def userPlanTransferEnable : Option PlanRecord → Checked Int
  | none => pure 0
  | some plan => planTransferEnableBytes plan.transferEnable

/-- The row `GenerateUsers` inserts, for one e-mail as for many. -/
def generatedUser (id : Int) (plan : Option PlanRecord) (expiredAt : Option Int) :
    Checked UserRecord := do
  let transferEnable ← userPlanTransferEnable plan
  pure {
    id
    inviteUserID := none
    balance := 0
    commissionBalance := 0
    discount := none
    commissionType := 0
    commissionRate := none
    u := 0
    d := 0
    transferEnable
    deviceLimit := plan.bind (·.deviceLimit)
    banned := 0
    groupID := plan.map (·.groupID)
    planID := plan.map (·.id)
    speedLimit := none
    expiredAt }

def supportMaxTrafficBytes : Int := 9007199254740991

structure SupportEntitlementChangeRequest where
  expected : String
  planID : Option Int
  transferEnable : Option Int
  /-- A time, or `null`; or no change. -/
  expiredAt : Option (Option Int)
  resetUsage : Bool
deriving Repr, DecidableEq

/-- The plan part of the change: nothing, where the user is on that plan already. -/
def changeSupportPlan (planID : Option Int) (plans : Int → Option PlanRecord)
    (before : UserRecord) : Except ServiceError (Checked UserRecord) :=
  match planID.filter fun id => before.planID ≠ some id with
  | none => pure (pure before)
  | some id => do
    let plan ← require (plans id) (.requestFailed "套餐不存在")
    let bytes := planTransferEnableBytes plan.transferEnable
    ensure (0 ≤ bytes.value ∧ bytes.value ≤ supportMaxTrafficBytes)
      (.requestFailed "套餐配额无效")
    let after := { before with
      planID := some plan.id
      groupID := some plan.groupID
      deviceLimit := plan.deviceLimit
      speedLimit := plan.speedLimit
      transferEnable := bytes.value }
    pure ⟨after, bytes.exact⟩

/-- `ChangeSupportEntitlement` from the loaded snapshot to the row it writes; `version`
is the digest of a snapshot. -/
def changeSupportEntitlement (version : UserRecord → String)
    (req : SupportEntitlementChangeRequest) (plans : Int → Option PlanRecord)
    (before : UserRecord) : Except ServiceError (Checked UserRecord) := do
  ensure (req.expected = version before) (.requestFailed "conflict")
  let granted ← changeSupportPlan req.planID plans before
  let usage := req.resetUsage && (before.u ≠ 0 || before.d ≠ 0)
  let after := { granted.value with
    transferEnable := req.transferEnable.getD granted.value.transferEnable
    expiredAt := req.expiredAt.getD granted.value.expiredAt
    u := if usage then 0 else before.u
    d := if usage then 0 else before.d }
  ensure (after ≠ before) (.requestFailed "权益未变化，无需重复保存")
  pure ⟨after, granted.exact⟩

/-- The columns of a source user the merge reads for the subscription. -/
structure MergeSourceUser where
  planID : Option Int
  groupID : Option Int
  transferEnable : Int
  deviceLimit : Option Int
  speedLimit : Option Int
  expiredAt : Option Int
deriving Repr, DecidableEq

/-- The subscription of a user of the target site. -/
structure MergeTargetUser where
  planID : Option Int
  groupID : Option Int
  transferEnable : Int
  deviceLimit : Option Int
  speedLimit : Option Int
  expiredAt : Option Int
deriving Repr, DecidableEq

/-- The columns of a target plan that the merge reads. -/
structure MergeTargetPlanInfo where
  id : Int
  groupID : Int
  transferEnable : Int
  deviceLimit : Option Int
  speedLimit : Option Int
deriving Repr, DecidableEq

def loadMergeTargetPlan (plan : PlanRecord) : MergeTargetPlanInfo :=
  ⟨plan.id, plan.groupID, plan.transferEnable, plan.deviceLimit, plan.speedLimit⟩

def normalizeMergeTransferGB (value : Int) : Int :=
  if value ≤ 0 then 0
  else if planTrafficGiB ≤ value then value / planTrafficGiB
  else value

def planTransferGBToUserBytes (value : Int) : Checked Int :=
  if value ≤ 0 then pure 0 else mul value planTrafficGiB

def maxMergeTransferEnableBytes (values : List Int) : Int := values.foldl max 0

def normalizeMergeExpiredAt (value : Option Int) : Option Int := value.filter (0 < ·)

def mergePreferredExpiredAt (currentRaw sourceRaw : Option Int) : Option Int :=
  match normalizeMergeExpiredAt sourceRaw, normalizeMergeExpiredAt currentRaw with
  | some source, some current => some (if current < source then source else current)
  | _, _ => none

def resolveMergeMappedTargetPlan (plans : Int → Option MergeTargetPlanInfo)
    (planMap : Int → Option Int) (sourceUser : MergeSourceUser) : Option MergeTargetPlanInfo := do
  let sourcePlanID ← sourceUser.planID.filter (0 < ·)
  let targetPlanID ← (planMap sourcePlanID).filter (0 < ·)
  plans targetPlanID

/-- A plan that is gone is rebuilt from the user's row. -/
def currentMergeTargetPlan (existing : MergeTargetUser) (plans : Int → Option MergeTargetPlanInfo) :
    Option MergeTargetPlanInfo :=
  (existing.planID.filter (0 < ·)).map fun id =>
    (plans id).getD ⟨id, existing.groupID.getD 0, normalizeMergeTransferGB existing.transferEnable,
      existing.deviceLimit, existing.speedLimit⟩

def preferredMergeTargetPlan (existing : MergeTargetUser) (sourcePlan : MergeTargetPlanInfo)
    (plans : Int → Option MergeTargetPlanInfo) : MergeTargetPlanInfo :=
  match currentMergeTargetPlan existing plans with
  | none => sourcePlan
  | some currentPlan =>
    if currentPlan.transferEnable < sourcePlan.transferEnable then sourcePlan else currentPlan

def buildMergedTargetUserSubscription (existing : MergeTargetUser) (sourceUser : MergeSourceUser)
    (sourcePlan : MergeTargetPlanInfo) (plans : Int → Option MergeTargetPlanInfo) :
    Checked MergeTargetUser := do
  let targetPlan := preferredMergeTargetPlan existing sourcePlan plans
  let share ← planTransferGBToUserBytes targetPlan.transferEnable
  pure {
    planID := some targetPlan.id
    groupID := some targetPlan.groupID
    transferEnable := maxMergeTransferEnableBytes
      [existing.transferEnable, sourceUser.transferEnable, share]
    deviceLimit := targetPlan.deviceLimit
    speedLimit := targetPlan.speedLimit
    expiredAt := mergePreferredExpiredAt existing.expiredAt sourceUser.expiredAt }

/-- The subscription of the user that is inserted; `none` where the plan is not mapped. -/
def buildMergeInsertUser (sourceUser : MergeSourceUser)
    (plans : Int → Option MergeTargetPlanInfo) (planMap : Int → Option Int) :
    Option (Checked MergeTargetUser) :=
  let expiredAt := normalizeMergeExpiredAt sourceUser.expiredAt
  if (sourceUser.planID.filter (0 < ·)).isNone then
    some (pure ⟨none, sourceUser.groupID, sourceUser.transferEnable, sourceUser.deviceLimit,
      sourceUser.speedLimit, expiredAt⟩)
  else
    (resolveMergeMappedTargetPlan plans planMap sourceUser).map fun targetPlan => do
      let share ← planTransferGBToUserBytes targetPlan.transferEnable
      pure {
        planID := some targetPlan.id
        groupID := some targetPlan.groupID
        transferEnable := maxMergeTransferEnableBytes [sourceUser.transferEnable, share]
        deviceLimit := targetPlan.deviceLimit
        speedLimit := targetPlan.speedLimit
        expiredAt }

end ForestPanel.Quota
