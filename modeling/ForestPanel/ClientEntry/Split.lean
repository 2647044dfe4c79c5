import ForestPanel.ClientEntry.Save
import ForestPanel.Lib.Rank

/-!
# Split rules

A split rule is created over a list of users or made from a standard rule over a range of
user ids; a leaf is divided by hand or by the worker, edited, or moved to the root of its
rule, which removes the ancestors it leaves empty.
-/
namespace ForestPanel.ClientEntry

open Outcome Relational

/-- A row of the pool of backup addresses; the pool stores canonical addresses. -/
structure BackupIP where
  id : Int
  ip : String
  shown : Shown ip

/-- Ids the sequences give to two new groups. -/
structure NewGroups where
  groupA : Int
  groupB : Int

structure SplitCreateRequest where
  /-- The users the delivery evidence gives for the request's host and window, when their
  digest is the one the request names. -/
  history : Option (Except String (List Int))
  historySingleGroup : Bool
  name : String
  minutes : Int
  members : List MemberRequest
  entryHostA : String
  entryHostB : String
  resolveEntryHost : Option Int
  enabled : Option Int
  remarks : String

structure PreparedSplit where
  name : String
  minutes : Int
  members : List (String × Int)
  entryHostA : String
  entryHostB : String
  resolveEntryHost : Int
  enabled : Int
  remarks : String

def entryEvidenceInvalid : String := "入口排查参数无效"
def entryEvidenceConflict : String := "入口排查快照已变化，请重新预览并冻结名单"

def normalizeClientEntryUserPolicySplitMinutes (value : Int) : Except String Int :=
  if value = 0 then .ok 60
  else do
    ensure (1 ≤ value ∧ value ≤ 43200) "订阅时间范围必须在 1 分钟到 30 天之间"
    pure value

section

variable (lib : EntryLibrary)

def normalizeClientEntryUserPolicySplitHosts (valueA valueB : String) :
    Except String (String × String) := do
  let hostA ← (normalizeHost lib valueA).mapError fun e => "A 组入口地址无效: " ++ e
  let hostB ← (normalizeHost lib valueB).mapError fun e => "B 组入口地址无效: " ++ e
  ensure (lib.equalFold hostA hostB = false) "A、B 两组入口地址不能相同"
  pure (hostA, hostB)

def firstHosts (req : SplitCreateRequest) : Except String (String × String) :=
  if req.historySingleGroup then do
    ensure (req.history.isSome ∧ trimSpace req.entryHostB = "") entryEvidenceInvalid
    let hostA ← normalizeHost lib req.entryHostA
    pure (hostA, "")
  else normalizeClientEntryUserPolicySplitHosts lib req.entryHostA req.entryHostB

def normalizeClientEntryUserPolicySplitCreateRequest (req : SplitCreateRequest) :
    Except String PreparedSplit := do
  let name := trimSpace req.name
  let remarks := trimSpace req.remarks
  ensure (name ≠ "") "规则名称不能为空"
  ensure (name.length ≤ 255) "规则名称不能超过 255 个字符"
  ensure (remarks.length ≤ 255) "备注不能超过 255 个字符"
  let minutes ← normalizeClientEntryUserPolicySplitMinutes req.minutes
  let (hostA, hostB) ← firstHosts lib req
  let resolve ← flag req.resolveEntryHost 0 "解析域名下发 IP 设置无效"
  let enabled ← flag req.enabled 1 "规则状态无效"
  let members ← normalizePolicyMembers lib req.members
  ensure (members ≠ []) "生效节点不能为空"
  pure ⟨name, minutes, members, hostA, hostB, resolve, enabled, remarks⟩

end

/-- The users in the order of their ids: the first half goes to one group, the others to
the other. -/
def halves (policyId : Int) (users : List Int) (new : NewGroups) : List AssignmentRow :=
  users.map fun userId =>
    ⟨policyId, userId,
      if Ranking.rank users userId ≤ (users.length + 1) / 2 then new.groupA else new.groupB⟩

def ensureHalves (rows : List AssignmentRow) (new : NewGroups) (few : String) :
    Except String Unit := do
  let inA := rows.countP fun a => a.groupId = new.groupA
  let inB := rows.countP fun a => a.groupId = new.groupB
  ensure (2 ≤ rows.length ∧ inA ≠ 0 ∧ inB ≠ 0) few
  ensure (inA ≤ inB + 1 ∧ inB ≤ inA + 1) "二分用户人数异常，请重试"

/-- A new leaf, as `insertClientEntryUserPolicySplitGroup` writes it. -/
def newGroup (id policyId : Int) (parentId : Option Int) (name path entryHost : String)
    (sort globalSort now : Int) (resolveEntryHost : Option Int) : GroupRow :=
  ⟨id, policyId, parentId, name, path, entryHost, sort, some globalSort, resolveEntryHost, now⟩

def recentUsers (db : RuleBase) (first last : Int) : List Int :=
  (db.activity.rows.filter fun a =>
    first ≤ a.lastSubscribeAt && a.lastSubscribeAt ≤ last && (db.users.find? a.userId).isSome).map
    ActivityRow.userId

/-- The users of a new split rule: recent subscribers, or those the evidence names. -/
def splitUsers (db : RuleBase) (req : SplitCreateRequest) (minutes now : Int) :
    Except String (List Int) :=
  match req.history with
  | none => .ok (recentUsers db (now - minutes * 60) now)
  | some evidence => do
    let users ← evidence
    ensure ((db.users.rows.filter fun u => u.id ∈ users).length = users.length)
      entryEvidenceConflict
    pure users

def newSplitPolicy (prepared : PreparedSplit) (id sort now : Int) : PolicyRow :=
  { id
    name := prepared.name
    sort
    mode := .split
    action := .override
    conditions := "[]"
    entryHost := ""
    resolveEntryHost := prepared.resolveEntryHost
    extraNodes := []
    enabled := prepared.enabled
    remarks := prepared.remarks
    updatedAt := now }

def clientEntryUserPolicySplitCreateFailure (stage : String) : String :=
  "创建二分规则失败（" ++ stage ++ "）"

def fillSplit (db : RuleBase) (policyId : Int) (prepared : PreparedSplit) (single : Bool)
    (users : List Int) (new : NewGroups) (nextSort now : Int) : Except String RuleBase := do
  let failure := clientEntryUserPolicySplitCreateFailure
  let db ← require (insertGroup db (newGroup new.groupA policyId none "A" "A" prepared.entryHostA
    clientEntryRuleSortStep nextSort now none)) (failure "创建 A 组")
  if single then do
    let rows := users.map fun userId => ⟨policyId, userId, new.groupA⟩
    let db ← require (insertAssignments db rows) (failure "固定用户名单")
    ensure (rows ≠ []) (entryEvidenceInvalid ++ "：当前历史名单没有可分组用户")
    pure db
  else do
    let db ← require (insertGroup db (newGroup new.groupB policyId none "B" "B"
      prepared.entryHostB (2 * clientEntryRuleSortStep) (nextSort + clientEntryRuleSortStep) now
      none)) (failure "创建 B 组")
    let rows := halves policyId users new
    let db ← require (insertAssignments db rows) (failure "固定用户名单")
    ensureHalves rows new "近期成功拉取订阅的用户不足 2 人，无法创建二分规则"
    pure db

def createClientEntryUserPolicySplit (lib : EntryLibrary) (db : RuleBase)
    (req : SplitCreateRequest) (newId : Int) (new : NewGroups) (now : Int) :
    Except String RuleBase := do
  ensure (req.historySingleGroup = true → req.history.isSome) entryEvidenceInvalid
  let prepared ← normalizeClientEntryUserPolicySplitCreateRequest lib req
  let users ← splitUsers db req prepared.minutes now
  validateClientEntryRuleMembers db prepared.members
  let nextSort := nextClientEntryRuleSort db
  let failure := clientEntryUserPolicySplitCreateFailure
  let db ← require (insertPolicy db (newSplitPolicy prepared newId nextSort now)) (failure "写入规则")
  let db ← require (replaceMembers db newId prepared.members) (failure "写入生效节点")
  fillSplit db newId prepared req.historySingleGroup users new nextSort now

structure SplitConvertRequest where
  policyId : Int
  entryHostA : String
  entryHostB : String
  useBackupIPPool : Bool

/-- The hosts of two new leaves, unless they come from the pool. -/
def requestedHosts (lib : EntryLibrary) (useBackupIPPool : Bool) (hostA hostB : String) :
    Except String (Option (String × String)) :=
  if useBackupIPPool then .ok none
  else some <$> normalizeClientEntryUserPolicySplitHosts lib hostA hostB

/-- The requested hosts, or the two addresses claimed from the pool. -/
def leafHosts (requested : Option (String × String)) (pool : Except String (List BackupIP)) :
    Except String (String × String) :=
  match requested with
  | some hosts => .ok hosts
  | none => do
    let claimed ← pool.mapError fun e => "从备用 IP 池自动填入失败: " ++ e
    match claimed with
    | [a, b] => pure (a.ip, b.ip)
    | _ => .error "从备用 IP 池自动填入失败：领取结果无效"

/-- The single range of user ids among conditions on the user agent. -/
def idRange (conditions : List Condition) : Except String (Int × Int) := do
  let others := conditions.filter fun c => c.field ≠ "ua"
  match others with
  | [c] => do
    ensure (c.field = "user_id" ∧ c.operator = "between") "只能转换包含一个用户 ID 范围、可附加 UA 条件的规则"
    let minimum ← require (clientEntryRuleRawInt64 c.min) "用户 ID 范围无效，无法转换"
    let maximum ← require (clientEntryRuleRawInt64 c.max) "用户 ID 范围无效，无法转换"
    ensure (0 < minimum ∧ minimum ≤ maximum) "用户 ID 范围无效，无法转换"
    pure (minimum, maximum)
  | _ => .error "只能转换包含一个用户 ID 范围、可附加 UA 条件的规则"

def convertClientEntryUserPolicyToSplit (lib : EntryLibrary) (db : RuleBase)
    (req : SplitConvertRequest) (pool : Except String (List BackupIP)) (new : NewGroups)
    (now : Int) : Except String RuleBase := do
  ensure (0 < req.policyId) "规则不存在"
  let requested ← requestedHosts lib req.useBackupIPPool req.entryHostA req.entryHostB
  let policy ← require ((db.policies.find? req.policyId).filter fun p => p.mode = .standard)
    "只能转换现有的标准规则"
  ensure (policy.action = .override) "只有覆盖入口地址的规则可以转换为固定二分"
  let conditions ← (decodeConditions lib.toStandardLibrary policy.conditions).mapError fun _ =>
    "规则匹配条件无效，无法转换"
  let (minimum, maximum) ← idRange conditions
  ensure (policy.extraNodes = []) "包含额外下发节点的规则不能转换为固定二分"
  let (hostA, hostB) ← leafHosts requested pool
  let failed := "转换固定二分规则失败"
  let db ← require (shiftVisibleSortsAfter db policy.sort clientEntryRuleSortStep) failed
  let db ← require (insertGroup db (newGroup new.groupA policy.id none "A" "A" hostA
    clientEntryRuleSortStep policy.sort now none)) failed
  let db ← require (insertGroup db (newGroup new.groupB policy.id none "B" "B" hostB
    (2 * clientEntryRuleSortStep) (policy.sort + clientEntryRuleSortStep) now none)) failed
  let users := (db.users.rows.map UserRow.id).filter fun id => minimum ≤ id && id ≤ maximum
  let rows := halves policy.id users new
  let db ← require (insertAssignments db rows) failed
  ensureHalves rows new "用户 ID 范围内的现有用户不足 2 人，无法转换"
  let db := detachClientEntryCollectionMembers db (itemOfPolicy db policy.id)
  pure { db with
    policies := db.policies.updateWhere
      (fun p => p.id = policy.id && p.mode = .standard)
      (fun p => { p with mode := .split, entryHost := "", extraNodes := [], updatedAt := now })
      fun _ => ⟨rfl, rfl⟩ }

/-- The names, paths, hosts and ids of the two children of a leaf. -/
structure Children where
  nameA : String
  nameB : String
  path : String
  hostA : String
  hostB : String
  new : NewGroups

def usersOf (db : RuleBase) (policyId groupId : Int) : List Int :=
  (db.assignments.rows.filter fun a => a.policyId = policyId && a.groupId = groupId).map
    AssignmentRow.userId

/-- The users of a leaf move to its children by their rank. -/
def reassign (db : RuleBase) (policyId groupId : Int) (new : NewGroups) : RuleBase :=
  let users := usersOf db policyId groupId
  { db with
    assignments := db.assignments.updateWhere
      (fun a => a.policyId = policyId && a.groupId = groupId)
      (fun a => { a with
        groupId :=
          if Ranking.rank users a.userId ≤ (users.length + 1) / 2 then new.groupA else new.groupB })
      fun _ => ⟨rfl, rfl⟩ }

/-- The statements that `splitClientEntryUserPolicyGroupTx` and the worker share, from the
shift of the order on. -/
def divideLeaf (db : RuleBase) (leaf : GroupRow) (position resolve : Int) (children : Children)
    (now : Int) : Option RuleBase := do
  let db ← shiftVisibleSortsAfter db position clientEntryRuleSortStep
  let db ← insertGroup db (newGroup children.new.groupA leaf.policyId (some leaf.id) children.nameA
    (children.path ++ ".1") children.hostA clientEntryRuleSortStep position now (some resolve))
  let db ← insertGroup db (newGroup children.new.groupB leaf.policyId (some leaf.id) children.nameB
    (children.path ++ ".2") children.hostB (2 * clientEntryRuleSortStep)
    (position + clientEntryRuleSortStep) now (some resolve))
  let db := reassign db leaf.policyId leaf.id children.new
  let db := detachClientEntryCollectionMembers db fun item => item = .splitGroup leaf.id
  some { db with
    groups := db.groups.updateWhere
      (fun g => g.id = leaf.id)
      (fun g => { g with entryHost := "", globalSort := none, updatedAt := now })
      fun _ => ⟨rfl, rfl⟩
    policies := db.policies.updateWhere
      (fun p => p.id = leaf.policyId)
      (fun p => { p with updatedAt := now })
      fun _ => ⟨rfl, rfl⟩ }

def parentPath (leaf : GroupRow) : String :=
  let path := trimSpace leaf.path
  if path = "" then trimSpace leaf.name else path

/-- `COALESCE(split_group.resolve_entry_host, policy.resolve_entry_host)`. -/
def leafResolve (policy : PolicyRow) (leaf : GroupRow) : Int :=
  leaf.resolveEntryHost.getD policy.resolveEntryHost

structure GroupSplitRequest where
  policyId : Int
  groupId : Int
  entryHostA : String
  entryHostB : String
  useBackupIPPool : Bool

def splitClientEntryUserPolicyGroup (lib : EntryLibrary) (db : RuleBase) (req : GroupSplitRequest)
    (pool : Except String (List BackupIP)) (new : NewGroups) (now : Int) :
    Except String RuleBase := do
  ensure (0 < req.policyId ∧ 0 < req.groupId) "二分组不存在"
  let requested ← requestedHosts lib req.useBackupIPPool req.entryHostA req.entryHostB
  let leaf ← require (db.leaf? req.policyId req.groupId) "只能继续二分当前叶子组"
  let policy ← require (db.policies.find? leaf.policyId) "只能继续二分当前叶子组"
  ensure (2 ≤ (usersOf db req.policyId req.groupId).length) "该组用户不足 2 人，无法继续二分"
  let position ← require leaf.globalSort "分组顺序无效，请刷新后重试"
  ensure (0 < position) "分组顺序无效，请刷新后重试"
  let (hostA, hostB) ← leafHosts requested pool
  let path := parentPath leaf
  ensure ((path ++ ".1").length ≤ 255) "二分层级过深"
  let children := ⟨path ++ ".1", path ++ ".2", path, hostA, hostB, new⟩
  require (divideLeaf db leaf position (leafResolve policy leaf) children now) "继续二分失败"

/-- What the worker's operation says it is about. -/
structure AutoSplitOperation where
  policyId : Int
  sourceGroupId : Int
  sourceHost : String

def automaticClientEntrySplitChildNames (parentName pathA pathB : String) : String × String :=
  let parentName := trimSpace parentName
  if parentName = "" then (pathA, pathB)
  else if 255 < (parentName ++ " A").length ∨ 255 < (parentName ++ " B").length then (pathA, pathB)
  else (parentName ++ " A", parentName ++ " B")

/-- The worker's transaction once every online probe has seen the entry fail. The rule
tables stay as they are when the operation is cancelled or has to wait. -/
def processNextClientEntryAutoSplit (lib : EntryLibrary) (db : RuleBase)
    (operation : AutoSplitOperation) (pool : Except String (List BackupIP)) (new : NewGroups)
    (now : Int) : Except String RuleBase :=
  match db.leaf? operation.policyId operation.sourceGroupId with
  | none => .ok db
  | some leaf =>
    match (db.policies.find? leaf.policyId).filter fun p => p.enabled = 1, leaf.globalSort, pool with
    | some policy, some position, .ok [a, b] =>
      if trimSpace leaf.entryHost ≠ trimSpace operation.sourceHost ∨ position ≤ 0 ∨
          (usersOf db operation.policyId operation.sourceGroupId).length < 2 then .ok db
      else if a.id ≤ 0 ∨ b.id ≤ 0 ∨ a.id = b.id ∨
          lib.equalFold (trimSpace a.ip) (trimSpace b.ip) = true then
        .error "backup IP claim returned duplicate addresses"
      else
        let path := parentPath leaf
        if 255 < (path ++ ".1").length then .ok db
        else
          let names := automaticClientEntrySplitChildNames leaf.name (path ++ ".1") (path ++ ".2")
          let children := ⟨names.1, names.2, path, a.ip, b.ip, new⟩
          require (divideLeaf db leaf position (leafResolve policy leaf) children now)
            "shift client entry order for automatic split"
    | _, _, _ => .ok db

structure GroupHostUpdateRequest where
  policyId : Int
  groupId : Int
  name : String
  entryHost : String
  resolveEntryHost : Option Int
  members : Option (List MemberRequest)
  enabled : Option Int
  remarks : String

/-- The settings a leaf shares with its rule, when the request carries them. -/
def sharedSettings (lib : EntryLibrary) (req : GroupHostUpdateRequest) :
    Except String (Option (Int × String × List (String × Int))) :=
  if req.enabled.isSome ∨ req.members.isSome then do
    let enabled ← require (req.enabled.filter fun e => e = 0 ∨ e = 1) "规则状态无效"
    let remarks := trimSpace req.remarks
    ensure (remarks.length ≤ 255) "备注不能超过 255 个字符"
    let members ← normalizePolicyMembers lib (req.members.getD [])
    ensure (members ≠ []) "生效节点不能为空"
    pure (some (enabled, remarks, members))
  else .ok none

def validateSharedMembers (db : RuleBase) :
    Option (Int × String × List (String × Int)) → Except String Unit
  | none => .ok ()
  | some (_, _, members) => validateClientEntryRuleMembers db members

def leafLeavesCollection (host : String) (wanted : Option Int) (c : CollectionRow) : Bool :=
  c.entryHost ≠ host || c.resolveEntryHost.any fun resolve => wanted.any fun w => resolve ≠ w

def rewrittenLeaf (name host : String) (resolve : Option Int) (now : Int) (g : GroupRow) :
    GroupRow :=
  { g with
    name
    entryHost := host
    resolveEntryHost := (resolve <|> g.resolveEntryHost)
    updatedAt := now }

/-- The settings of the rule are written with the leaf, or its edit time only. -/
def writeShared (db : RuleBase) (policyId now : Int) :
    Option (Int × String × List (String × Int)) → Option RuleBase
  | none => some { db with
      policies := db.policies.updateWhere
        (fun p => p.id = policyId && p.mode = .split)
        (fun p => { p with updatedAt := now })
        fun _ => ⟨rfl, rfl⟩ }
  | some (enabled, remarks, members) =>
    replaceMembers { db with
      policies := db.policies.updateWhere
        (fun p => p.id = policyId && p.mode = .split)
        (fun p => { p with enabled, remarks, updatedAt := now })
        fun _ => ⟨rfl, rfl⟩ } policyId members

def updateClientEntryUserPolicySplitGroupHost (lib : EntryLibrary) (db : RuleBase)
    (req : GroupHostUpdateRequest) (now : Int) : Except String RuleBase := do
  ensure (0 < req.policyId ∧ 0 < req.groupId) "二分组不存在"
  let name := trimSpace req.name
  ensure (name ≠ "") "规则名称不能为空"
  ensure (name.length ≤ 255) "规则名称不能超过 255 个字符"
  let host ← (normalizeHost lib req.entryHost).mapError fun e => "分组入口地址无效: " ++ e
  ensure (∀ resolve ∈ req.resolveEntryHost, resolve = 0 ∨ resolve = 1) "解析域名下发 IP 设置无效"
  let shared ← sharedSettings lib req
  validateSharedMembers db shared
  ensure ((db.leaf? req.policyId req.groupId).isSome ∧
    collectionForbids db (.splitGroup req.groupId)
      (leafLeavesCollection host req.resolveEntryHost) = false)
    "只能编辑当前叶子组；合集成员的入口及解析设置请在合集中统一修改，单独设置前请先移出合集"
  let db := { db with
    groups := db.groups.updateWhere
      (fun g => g.id = req.groupId)
      (rewrittenLeaf name host req.resolveEntryHost now)
      fun _ => ⟨rfl, rfl⟩ }
  require (writeShared db req.policyId now shared) "更新生效节点失败"

/-- The `UPDATE`s of `SortClientEntryUserPolicySplitGroups`, from the leaf number `index` on. -/
def sortGroupsFrom (now : Int) (groups : GroupTable) (index : Nat) : List Int → GroupTable
  | [] => groups
  | id :: rest =>
    sortGroupsFrom now (groups.updateWhere
      (fun g => g.id = id)
      (fun g => { g with sort := (index + 1) * clientEntryRuleSortStep, updatedAt := now })
      fun _ => ⟨rfl, rfl⟩) (index + 1) rest

def sortClientEntryUserPolicySplitGroups (db : RuleBase) (policyId : Int) (ids : List Int)
    (now : Int) : Except String RuleBase := do
  ensure (0 < policyId ∧ ids ≠ [] ∧ ∀ id ∈ ids, 0 < id) "二分组顺序无效"
  ensure ids.Nodup "二分组顺序包含重复项"
  ensure (db.isSplit policyId = true) "二分规则不存在"
  let leaves := (db.groups.rows.filter fun g =>
    g.policyId = policyId && isLeaf db.groups g.id).map GroupRow.id
  ensure (leaves.length = ids.length ∧ ∀ id ∈ ids, id ∈ leaves) "二分组列表已变化，请刷新后重试"
  pure { db with
    groups := sortGroupsFrom now db.groups 0 ids
    policies := db.policies.updateWhere
      (fun p => p.id = policyId && p.mode = .split)
      (fun p => { p with updatedAt := now })
      fun _ => ⟨rfl, rfl⟩ }

/-- The letters `A` to `Z`, then `R1`, `R2` and so on. -/
def rootPath (index : Nat) : String :=
  if index < 26 then String.singleton (Char.ofNat ('A'.toNat + index))
  else "R" ++ String.ofList (Nat.toDigits 10 (index - 25))

/-- The first of `fuel` candidates that is not a path. -/
def nextRootPathFrom (paths : List String) : Nat → Nat → Option String
  | 0, _ => none
  | fuel + 1, index =>
    if rootPath index ∈ paths then nextRootPathFrom paths fuel (index + 1)
    else some (rootPath index)

/-- One candidate more than there are paths is not among them. -/
def nextClientEntrySplitRootPath (paths : List String) : Option String :=
  nextRootPathFrom paths (paths.length + 1) 0

/-- The loop over the ancestors that are left empty. `groups` holds them as they were read,
`count` counts their children then; every round is at a shorter path, which bounds the
rounds by `fuel`. -/
def removeAncestors (groups : List GroupRow) (count : Int → Nat) (policyId : Int) :
    Nat → RuleBase → Int → Option RuleBase
  | 0, _, _ => none
  | fuel + 1, db, ancestorId =>
    match groups.find? fun g => g.id = ancestorId with
    | none => some db
    | some ancestor =>
      if ancestorId ≤ 0 ∨ 1 < count ancestorId ∨
          ∃ a ∈ db.assignments, a.policyId = policyId ∧ a.groupId = ancestorId then some db
      else
        let db := deleteGroups db [ancestorId]
        match ancestor.parentId with
        | none => some db
        | some parent => removeAncestors groups count policyId fuel db parent

def moveClientEntryUserPolicySplitGroupToRoot (db : RuleBase) (policyId groupId now : Int) :
    Except String RuleBase := do
  ensure (0 < policyId ∧ 0 < groupId) "二分组不存在"
  ensure (db.isSplit policyId = true) "二分规则不存在"
  let groups := db.groups.rows.filter fun g => g.policyId = policyId
  let target ← require (groups.find? fun g => g.id = groupId) "二分组不存在"
  let parent ← require target.parentId "该分组已经是根级"
  let count (id : Int) := groups.countP fun g => g.parentId = some id
  ensure (count target.id = 0) "只能移出当前叶子分组"
  let roots := (groups.filter fun g => g.parentId.isNone).map GroupRow.sort
  let failed := "移出父分组失败"
  let path ← require (nextClientEntrySplitRootPath (groups.map fun g => trimSpace g.path)) failed
  let moved ← require (db.groups.updateUnique?
    (fun g => g.id = groupId && g.policyId = policyId)
    fun g => { g with
      parentId := none
      path
      sort := roots.foldl max 0 + clientEntryRuleSortStep
      updatedAt := now }) failed
  let db ← require (removeAncestors groups count policyId (target.path.length + 1)
    { db with groups := moved } parent) failed
  pure { db with
    policies := db.policies.updateWhere
      (fun p => p.id = policyId && p.mode = .split)
      (fun p => { p with updatedAt := now })
      fun _ => ⟨rfl, rfl⟩ }

end ForestPanel.ClientEntry
