import ForestPanel.ClientEntry.Normal
import ForestPanel.Lib.Outcome

/-!
# The migration preview

`readTargetState`, `buildPreview` and `verifyTarget`. The preview passes once over the users of
the source site, counts each of them and collects those that may be imported. Random bytes come
with the call; a call that needs more of them fails.
-/
namespace ForestPanel.UserMigration.Preview

open ClientEntry (StandardLibrary)
open Outcome

/-- `bcrypt.Cost`, besides the standard library. -/
structure Library extends StandardLibrary where
  bcryptCost : String → Option Int

inductive PreviewError
  | unavailable
  | invalidParameter
  | sourceSchema
  | targetRead
  | previewStale
deriving DecidableEq, Repr

structure Plan where
  id : Int
  name : String
  users : Int
  transferEnable : Int
  groupID : Int
  deviceLimit : Option Int
  speedLimit : Option Int
  resetTrafficMethod : Option Int
deriving DecidableEq, Repr

structure SourceUser where
  id : Int
  email : String
  password : String
  passwordAlgo : String
  token : String
  uuid : String
  balance : Int
  commissionBalance : Int
  lockingBalance : Int
  u : Int
  d : Int
  t : Int
  transferEnable : Int
  planID : Option Int
  expiredAt : Option Int
  banned : Int
  isAdmin : Int
  isStaff : Int
  createdAt : Int
  updatedAt : Int
deriving DecidableEq, Repr

structure InsertUser extends SourceUser where
  targetPlan : Option Plan
deriving DecidableEq, Repr

/-- What is read of a row of `v2_user` at the target. -/
structure TargetUser where
  email : String
  token : String
  uuid : String
deriving DecidableEq, Repr

structure TargetState where
  plans : List Plan
  emails : List String
  tokens : List String
  uuids : List String
deriving DecidableEq, Repr

def TargetState.plan (target : TargetState) (id : Int) : Option Plan :=
  target.plans.find? fun plan => plan.id = id

def maxTargetUsers : Nat := 2000000

def maxInt32 : Int := 2147483647

def minInt32 : Int := -2147483648

def maxInt64 : Int := 9223372036854775807

/-- Sixteen random bytes. -/
abbrev Draw := { bytes : List (Fin 256) // bytes.length = 16 }

def hexDigit (n : Nat) : Char := "0123456789abcdef".toList.getD n '0'

/-- `hex.EncodeToString`. -/
def hexEncode (bytes : List (Fin 256)) : List Char :=
  bytes.flatMap fun b => [hexDigit (b.val / 16), hexDigit (b.val % 16)]

section

variable (lib : Library)

def emailKey (v : String) : String := lib.lower (trimSpace v)

def uuidKey (v : String) : String := lib.lower (trimSpace v)

def readTargetPlans (rows : List Plan) : Except PreviewError (List Plan) :=
  if 10000 < rows.length then .error .targetRead else .ok rows

def readTargetState (plans : List Plan) (users : List TargetUser) :
    Except PreviewError TargetState := do
  let plans ← readTargetPlans plans
  ensure (users.length ≤ maxTargetUsers) .targetRead
  return {
    plans
    emails := users.map fun user => emailKey lib user.email
    tokens := users.map fun user => trimSpace user.token
    uuids := users.map fun user => uuidKey lib user.uuid }

def isAlphanumeric (c : Char) : Bool :=
  ('A' ≤ c && c ≤ 'Z') || ('a' ≤ c && c ≤ 'z') || ('0' ≤ c && c ≤ '9')

def isHex (c : Char) : Bool :=
  ('0' ≤ c && c ≤ '9') || ('a' ≤ c && c ≤ 'f') || ('A' ≤ c && c ≤ 'F')

/-- `^\$2[aby]\$[0-9]{2}\$[./A-Za-z0-9]{53}$` -/
def passwordPattern (s : String) : Bool :=
  let text := s.toList
  text.length = 60 && text.take 2 = ['$', '2'] &&
    ((text.drop 2).take 1).all (fun c => c = 'a' || c = 'b' || c = 'y') &&
    (text.drop 3).take 1 = ['$'] && ((text.drop 4).take 2).all Char.isDigit &&
    (text.drop 6).take 1 = ['$'] &&
    (text.drop 7).all fun c => c = '.' || c = '/' || isAlphanumeric c

/-- `^[A-Za-z0-9_-]{32}$` -/
def tokenPattern (s : String) : Bool :=
  s.toList.length = 32 && s.toList.all fun c => isAlphanumeric c || c = '_' || c = '-'

/-- Groups of hexadecimal digits of these lengths, with hyphens between them. -/
def hexGroups : List Nat → List Char → Bool
  | [], _ => false
  | [n], text => text.length = n && text.all isHex
  | n :: rest, text =>
    (text.take n).length = n && (text.take n).all isHex && (text.drop n).head? = some '-' &&
      hexGroups rest (text.drop (n + 1))

/-- `^[0-9a-fA-F]{8}-[0-9a-fA-F]{4}-[0-9a-fA-F]{4}-[0-9a-fA-F]{4}-[0-9a-fA-F]{12}$` -/
def uuidPattern (s : String) : Bool := hexGroups [8, 4, 4, 4, 12] s.toList

def validEmail (v : String) : Bool :=
  if v = "" ∨ 64 < v.utf8ByteSize then false else lib.parseAddress v = some v

def validPassword (u : SourceUser) : Bool :=
  let algo := lib.lower (trimSpace u.passwordAlgo)
  if algo ≠ "" ∧ algo ≠ "bcrypt" then false
  else if passwordPattern u.password = false then false
  else
    match lib.bcryptCost u.password with
    | none => false
    | some cost => 4 ≤ cost && cost ≤ 16

def in32 (n : Int) : Bool := minInt32 ≤ n && n ≤ maxInt32

def validValues (u : SourceUser) (policy : String) : Bool :=
  if u.id ≤ 0 ∨ in32 u.balance = false ∨ in32 u.commissionBalance = false ∨
      u.lockingBalance < 0 ∨ u.u < 0 ∨ u.d < 0 ∨ maxInt64 - u.d < u.u ∨ u.t < 0 ∨
      maxInt32 < u.t ∨ u.transferEnable < 0 ∨ u.createdAt < 0 ∨ maxInt32 < u.createdAt ∨
      u.updatedAt < 0 ∨ maxInt32 < u.updatedAt then false
  else if (u.expiredAt.any fun at_ => at_ < 0) = true then false
  else if policy = "to_balance" ∧
      (maxInt32 < u.lockingBalance ∨ maxInt32 - u.lockingBalance < u.balance) then false
  else true

structure RegenerationOptions where
  tokens : Bool
  uuids : Bool
deriving DecidableEq, Repr

structure Counts where
  total : Nat
  importable : Nat
  skippedPrivileged : Nat
  skippedExisting : Nat
  skippedDuplicateEmail : Nat
  skippedLockedBalance : Nat
  skippedPlan : Nat
  invalidEmail : Nat
  unsupportedPassword : Nat
  invalidValues : Nat
  unmappedPlan : Nat
  noPlan : Nat
  regeneratedTokens : Nat
  regeneratedUUIDs : Nat
  lockingBalanceUsers : Nat
  lockingBalanceTotal : Int
deriving DecidableEq, Repr

inductive Reason
  | skippedPrivileged
  | skippedExisting
  | skippedDuplicateEmail
  | skippedLockedBalance
  | skippedPlan
  | invalidEmail
  | unsupportedPassword
  | invalidValues
  | unmappedPlan
deriving DecidableEq, Repr

def Counts.raise (c : Counts) : Reason → Counts
  | .skippedPrivileged => { c with skippedPrivileged := c.skippedPrivileged + 1 }
  | .skippedExisting => { c with skippedExisting := c.skippedExisting + 1 }
  | .skippedDuplicateEmail => { c with skippedDuplicateEmail := c.skippedDuplicateEmail + 1 }
  | .skippedLockedBalance => { c with skippedLockedBalance := c.skippedLockedBalance + 1 }
  | .skippedPlan => { c with skippedPlan := c.skippedPlan + 1 }
  | .invalidEmail => { c with invalidEmail := c.invalidEmail + 1 }
  | .unsupportedPassword => { c with unsupportedPassword := c.unsupportedPassword + 1 }
  | .invalidValues => { c with invalidValues := c.invalidValues + 1 }
  | .unmappedPlan => { c with unmappedPlan := c.unmappedPlan + 1 }

/-- What `buildPreview` has so far; `tokens` and `uuids` are those of the target, with the ones
of the users to import added. -/
structure Progress where
  counts : Counts
  users : List InsertUser
  plans : List Plan
  seen : List String
  tokens : List String
  uuids : List String
  draws : List Draw
deriving DecidableEq, Repr

def Progress.skip (p : Progress) (reason : Reason) : Progress :=
  { p with counts := p.counts.raise reason }

/-- Draws until the text made of a draw is not taken. -/
def drawFresh (make : Draw → String) (taken : String → Bool) :
    List Draw → Except PreviewError (String × List Draw)
  | [] => .error .unavailable
  | draw :: rest =>
    if taken (make draw) then drawFresh make taken rest else .ok (make draw, rest)

def randomToken (draw : Draw) : String := String.ofList (hexEncode draw.val)

def randomUUID (draw : Draw) : String :=
  let v := hexEncode draw.val
  String.ofList (v.take 8 ++ '-' :: (v.drop 8).take 4 ++ '-' :: '4' :: (v.drop 13).take 3 ++
    '-' :: 'a' :: (v.drop 17).take 3 ++ '-' :: v.drop 20)

/-- The token of a user to import, and what follows for the counts. -/
def importToken (users : List SourceUser) (regenerate : Bool) (p : Progress) (src : SourceUser) :
    Except PreviewError (String × Progress) :=
  let token := trimSpace src.token
  if regenerate = true ∨ tokenPattern token = false ∨ token ∈ p.tokens then do
    let sourceTokens := users.map fun user => trimSpace user.token
    let (token, draws) ← drawFresh randomToken
      (fun t => t ∈ p.tokens || t ∈ sourceTokens) p.draws
    return (token, { p with
      draws
      tokens := token :: p.tokens
      counts := { p.counts with regeneratedTokens := p.counts.regeneratedTokens + 1 } })
  else .ok (token, { p with tokens := token :: p.tokens })

def importUUID (users : List SourceUser) (regenerate : Bool) (p : Progress) (src : SourceUser) :
    Except PreviewError (String × Progress) :=
  let uuid := uuidKey lib src.uuid
  if regenerate = true ∨ uuidPattern uuid = false ∨ uuid ∈ p.uuids then do
    let sourceUUIDs := users.map fun user => uuidKey lib user.uuid
    let (uuid, draws) ← drawFresh randomUUID (fun v => v ∈ p.uuids || v ∈ sourceUUIDs) p.draws
    return (uuid, { p with
      draws
      uuids := uuid :: p.uuids
      counts := { p.counts with regeneratedUUIDs := p.counts.regeneratedUUIDs + 1 } })
  else .ok (uuid, { p with uuids := uuid :: p.uuids })

structure Request where
  users : List SourceUser
  mappings : Int → Option Int
  policy : String
  regenerate : RegenerationOptions

variable (req : Request) (target : TargetState)

def imported (src : SourceUser) (plan : Option Plan) : SourceUser :=
  { src with
    email := emailKey lib src.email
    passwordAlgo := ""
    banned := if src.banned ≠ 0 then 1 else src.banned
    balance := if req.policy = "to_balance" then src.balance + src.lockingBalance else src.balance
    lockingBalance := 0
    planID := if plan.isNone then none else src.planID }

def Progress.countPlan (p : Progress) (plan : Option Plan) : Progress :=
  if plan.isNone then { p with counts := { p.counts with noPlan := p.counts.noPlan + 1 } } else p

def admitUser (p : Progress) (src : SourceUser) (plan : Option Plan) :
    Except PreviewError Progress := do
  let (token, p) ← importToken req.users req.regenerate.tokens (p.countPlan plan) src
  let (uuid, p) ← importUUID lib req.users req.regenerate.uuids p src
  let user : InsertUser := { imported lib req src plan with token, uuid, targetPlan := plan }
  return { p with users := p.users ++ [user] }

def checkUser (p : Progress) (src : SourceUser) (plan : Option Plan) :
    Except PreviewError Progress :=
  if validPassword lib src = false then .ok (p.skip .unsupportedPassword)
  else if validValues src req.policy = false then .ok (p.skip .invalidValues)
  else admitUser lib req p src plan

def choosePlan (p : Progress) (src : SourceUser) : Except PreviewError Progress :=
  match src.planID.filter fun id => 0 < id with
  | none => checkUser lib req p src none
  | some planID =>
    match req.mappings planID with
    | none => .ok (p.skip .unmappedPlan)
    | some mapped =>
      if mapped = 0 then .ok (p.skip .skippedPlan)
      else
        match target.plan mapped with
        | none => .error .invalidParameter
        | some plan =>
          let plans := (p.plans.filter fun known => known.id ≠ plan.id) ++ [plan]
          checkUser lib req { p with plans } src (some plan)

def checkLocked (p : Progress) (src : SourceUser) : Except PreviewError Progress :=
  if 0 < src.lockingBalance then
    let counts := { p.counts with lockingBalanceUsers := p.counts.lockingBalanceUsers + 1 }
    if maxInt64 - counts.lockingBalanceTotal < src.lockingBalance then .error .sourceSchema
    else
      let total := counts.lockingBalanceTotal + src.lockingBalance
      let p := { p with counts := { counts with lockingBalanceTotal := total } }
      if req.policy = "skip" then .ok (p.skip .skippedLockedBalance)
      else choosePlan lib req target p src
  else choosePlan lib req target p src

def visit (p : Progress) (src : SourceUser) : Except PreviewError Progress :=
  if src.isAdmin ≠ 0 ∨ src.isStaff ≠ 0 then .ok (p.skip .skippedPrivileged)
  else
    let key := emailKey lib src.email
    if key ∈ target.emails then .ok (p.skip .skippedExisting)
    else if validEmail lib key = false then .ok (p.skip .invalidEmail)
    else if key ∈ p.seen then .ok (p.skip .skippedDuplicateEmail)
    else checkLocked lib req target { p with seen := key :: p.seen } src

structure PreviewResult where
  counts : Counts
  blockers : List String
  warnings : List String
  canApply : Bool
  regenerateTokens : Bool
  regenerateUUIDs : Bool
deriving DecidableEq, Repr

structure Built where
  result : PreviewResult
  users : List InsertUser
  plans : List Plan
deriving DecidableEq, Repr

def Progress.start (draws : List Draw) : Progress where
  counts := ⟨req.users.length, 0, 0, 0, 0, 0, 0, 0, 0, 0, 0, 0, 0, 0, 0, 0⟩
  users := []
  plans := []
  seen := []
  tokens := target.tokens
  uuids := target.uuids
  draws := draws

def textIf (applies : Bool) (text : String) : List String := if applies then [text] else []

def blockersOf (counts : Counts) (users : List InsertUser) : List String :=
  textIf (0 < counts.invalidEmail)
      "部分源用户邮箱无效或超出目标长度限制，需修正源数据后重新预览。" ++
    textIf (0 < counts.unsupportedPassword)
      "部分源用户密码不是受支持的 bcrypt 格式，需处理后重新预览。" ++
    textIf (0 < counts.invalidValues)
      "部分源用户数值超出目标字段范围，需处理后重新预览。" ++
    textIf (0 < counts.unmappedPlan)
      "部分源用户套餐尚未映射，请选择目标套餐或明确排除该套餐。" ++
    textIf users.isEmpty "没有可导入的用户。"

def warningsOf (counts : Counts) : List String :=
  ["邮箱去除首尾空白、不区分大小写比对；目标已有账号跳过，密码、余额和权益不变。",
    "导入的是预览时快照；源站后续变更不会自动包含，需重新预览。",
    "生成新预览会使当前管理员之前的预览失效。",
    "保留源用户额度、已用流量和到期时间；后续重置按目标套餐周期，本周期不会立即清零已用流量。",
    "无套餐用户保留源额度和到期字段，但不分配目标套餐或线路分组，不额外赋予套餐权限。"] ++
    textIf req.regenerate.tokens
      "已开启强制重新生成订阅 Token：全部新增用户使用新 Token，需重新获取目标站订阅。" ++
    textIf req.regenerate.uuids
      "已开启强制重新生成 UUID：全部新增用户使用新 UUID，需重新获取并更新客户端订阅。" ++
    textIf (req.regenerate.tokens || req.regenerate.uuids)
      "仅更换目标站本次新增用户的选定凭据，不修改源站凭据或用户登录密码；旧站继续运行时，旧凭据仍可能有效。" ++
    textIf (0 < counts.skippedDuplicateEmail)
      "源站存在重复邮箱，仅保留第一条普通用户记录，其余跳过。" ++
    textIf (0 < counts.lockingBalanceUsers && req.policy = "discard")
      "待解锁佣金不迁移；账户余额和已解锁佣金分别保留，不将待解锁金额并入余额。"

def buildPreview (draws : List Draw) : Except PreviewError Built := do
  let p ← req.users.foldlM (visit lib req target) (Progress.start req target draws)
  let counts := { p.counts with importable := p.users.length }
  let blockers := blockersOf counts p.users
  return {
    result := {
      counts
      blockers
      warnings := warningsOf req counts
      canApply := blockers.length = 0
      regenerateTokens := req.regenerate.tokens
      regenerateUUIDs := req.regenerate.uuids }
    users := p.users
    plans := p.plans }

/-- What is kept of a preview until it is applied, besides its result. -/
structure StoredPreview where
  users : List InsertUser
  plans : List Plan
  resetMethod : Int
deriving DecidableEq, Repr

def verifyTarget (p : StoredPreview) (target : TargetState) (resetMethod : Int) :
    Except PreviewError Unit := do
  ensure (resetMethod = p.resetMethod) .previewStale
  ensure (∀ old ∈ p.plans, target.plan old.id = some old) .previewStale
  ensure (∀ u ∈ p.users, emailKey lib u.email ∉ target.emails ∧ u.token ∉ target.tokens ∧
    u.uuid ∉ target.uuids) .previewStale

end

end ForestPanel.UserMigration.Preview
