import ForestPanel.ClientEntry.Tables

/-!
# Saving rules

`SaveClientEntryUserPolicy`, `DeleteClientEntryUserPolicy`, the enabled flag, and the three
ways to order rules. Every operation is one transaction: it returns the tables it commits,
or the error it is rolled back with.
-/
namespace ForestPanel.ClientEntry

open Outcome Relational

structure MemberRequest where
  serverType : String
  serverId : Int
deriving DecidableEq

/-- The keys of `managedServerDefinitions`. -/
def managedServerTypes : List String :=
  ["vmess", "trojan", "shadowsocks", "tuic", "hysteria", "vless", "anytls", "v2node"]

structure PolicySaveRequest where
  id : Option Int
  name : String
  action : String
  conditions : List Condition
  confirmMatchAll : Bool
  members : List MemberRequest
  entryHost : String
  resolveEntryHost : Option Int
  extraNodes : List String
  enabled : Option Int
  remarks : String

/-- `preparedClientEntryRuleSaveRequest`. -/
structure PreparedPolicy where
  name : String
  action : Action
  conditions : List Condition
  members : List (String × Int)
  entryHost : String
  resolveEntryHost : Int
  extraNodes : List String
  enabled : Int
  remarks : String

section

variable (lib : EntryLibrary)

def normalizeAction (value : String) : Except String Action :=
  let action := lib.lower (trimSpace value)
  if action = "" ∨ action = "override" then .ok .override
  else if action = "original" then .ok .original
  else if action = "hide" then .ok .hide
  else .error "规则动作无效"

/-- The loop of `normalizePolicyMembers`: a member that was seen is skipped. -/
def normalizeMembersFrom (seen : List (String × Int)) :
    List MemberRequest → Except String (List (String × Int))
  | [] => .ok []
  | value :: rest => do
    let serverType := lib.lower (trimSpace value.serverType)
    ensure (serverType ∈ managedServerTypes ∧ 0 < value.serverId) "生效节点无效"
    let key := (serverType, value.serverId)
    if key ∈ seen then normalizeMembersFrom seen rest
    else do
      let others ← normalizeMembersFrom (key :: seen) rest
      pure (key :: others)

def normalizePolicyMembers (values : List MemberRequest) : Except String (List (String × Int)) :=
  normalizeMembersFrom lib [] values

/-- An optional flag: `0` or `1`, or the default. -/
def flag (value : Option Int) (default : Int) (e : String) : Except String Int :=
  match value with
  | none => .ok default
  | some value => do
    ensure (value = 0 ∨ value = 1) e
    pure value

/-- The host and the resolve flag a rule may carry under its action. -/
def preparedEntry (action : Action) (req : PolicySaveRequest) : Except String (String × Int) :=
  if action ≠ .override then do
    ensure (trimSpace req.entryHost = "")
      (if action = .hide then "隐藏节点规则不能填写独立入口地址" else "下发原入口地址规则不能填写独立入口地址")
    pure ("", 0)
  else do
    let host ← normalizeHost lib req.entryHost
    let resolve ← flag req.resolveEntryHost 0 "解析域名下发 IP 设置无效"
    pure (host, resolve)

def normalizeClientEntryUserPolicySaveRequest (req : PolicySaveRequest) :
    Except String PreparedPolicy := do
  let name := trimSpace req.name
  let remarks := trimSpace req.remarks
  ensure (name ≠ "") "规则名称不能为空"
  ensure (name.length ≤ 255) "规则名称不能超过 255 个字符"
  ensure (remarks.length ≤ 255) "备注不能超过 255 个字符"
  let action ← normalizeAction lib req.action
  let (entryHost, resolveEntryHost) ← preparedEntry lib action req
  let conditions ← normalizeConditions lib.toStandardLibrary req.conditions
  let extraNodes ← lib.normalizeList req.extraNodes
  let members ← normalizePolicyMembers lib req.members
  ensure (members ≠ []) "生效节点不能为空"
  let enabled ← flag req.enabled 1 "规则状态无效"
  pure ⟨name, action, conditions, members, entryHost, resolveEntryHost, extraNodes, enabled, remarks⟩

/-- `strconv.ParseInt` of a raw value. -/
def clientEntryRuleRawInt64 (raw : String) : Option Int := Decimal.parse (trimSpace raw).toList

def namedUsers (conditions : List Condition) : List String :=
  (conditions.filter fun c => c.field = "user_id" && c.operator = "in").flatMap fun c =>
    c.values.getD []

def validateClientEntryRuleUsers (db : RuleBase) (conditions : List Condition) :
    Except String Unit := do
  let ids ← (namedUsers conditions).mapM fun raw => do
    let id ← require (clientEntryRuleRawInt64 raw) "指定用户无效"
    ensure (0 < id) "指定用户无效"
    pure id
  for id in ids do
    ensure (∃ u ∈ db.users, u.id = id) ("指定用户 #" ++ toString id ++ " 不存在")

def validateClientEntryRuleMembers (db : RuleBase) (members : List (String × Int)) :
    Except String Unit := do
  for m in members do
    ensure (m.1 ∈ managedServerTypes ∧ 0 < m.2) "生效节点无效"
    ensure (m ∈ db.servers) ("生效节点 " ++ m.1 ++ " #" ++ toString m.2 ++ " 不存在")

/-- New empty conditions match everybody and need a confirmation. -/
def requireClientEntryMatchAllConfirmation (isNew : Bool) (before after : List Condition)
    (confirmed : Bool) : Except String Unit :=
  ensure (¬(after = [] ∧ (isNew = true ∨ before ≠ []) ∧ confirmed = false))
    "无匹配条件将匹配所选节点范围内的全部合资格用户；请明确确认并设置 confirm_match_all=true"

def collectionForbids (db : RuleBase) (item : Item) (forbids : CollectionRow → Bool) : Bool :=
  ∃ m ∈ db.collectionMembers, m.item = item ∧
    ∃ c ∈ db.collections, c.id = m.collectionId ∧ forbids c = true

def collectionChanged : String :=
  "规则已变化或入口由合集统一管理，请刷新后在合集中修改入口及解析设置；如需单独设置，请先移出合集"

def newPolicy (prepared : PreparedPolicy) (conditions : String) (id sort now : Int) : PolicyRow :=
  { id
    name := prepared.name
    sort
    mode := .standard
    action := prepared.action
    conditions
    entryHost := prepared.entryHost
    resolveEntryHost := prepared.resolveEntryHost
    extraNodes := prepared.extraNodes
    enabled := prepared.enabled
    remarks := prepared.remarks
    updatedAt := now }

def rewritten (prepared : PreparedPolicy) (conditions : String) (now : Int) (p : PolicyRow) :
    PolicyRow :=
  { p with
    name := prepared.name
    action := prepared.action
    conditions
    entryHost := prepared.entryHost
    resolveEntryHost := prepared.resolveEntryHost
    extraNodes := prepared.extraNodes
    enabled := prepared.enabled
    remarks := prepared.remarks
    updatedAt := now }

def leavesCollection (prepared : PreparedPolicy) (c : CollectionRow) : Bool :=
  c.entryHost ≠ prepared.entryHost || prepared.action ≠ .override ||
    c.resolveEntryHost.any fun resolve => resolve ≠ prepared.resolveEntryHost

def confirmNew (req : PolicySaveRequest) (prepared : PreparedPolicy) : Except String Unit :=
  if req.id = none then
    requireClientEntryMatchAllConfirmation true [] prepared.conditions req.confirmMatchAll
  else pure ()

/-- An edit that empties the conditions needs a confirmation, unless they were empty. -/
def confirmEdit (before : Option PolicyRow) (prepared : PreparedPolicy) (confirmed : Bool) :
    Except String Unit :=
  if prepared.conditions = [] ∧ confirmed = false then do
    let before ← require before "规则不存在或已变化，请刷新后重试"
    let beforeConditions ←
      (decodeConditions lib.toStandardLibrary before.conditions).mapError fun _ =>
        "现有匹配条件无效，请刷新核对"
    requireClientEntryMatchAllConfirmation false beforeConditions prepared.conditions false
  else pure ()

def writePolicy (db : RuleBase) (req : PolicySaveRequest) (prepared : PreparedPolicy)
    (conditions : String) (newId now : Int) : Except String (Int × RuleBase) :=
  match req.id with
  | none => do
    let db ← require (insertPolicy db
      (newPolicy prepared conditions newId (nextClientEntryRuleSort db) now)) "保存失败"
    pure (newId, db)
  | some policyId => do
    ensure (0 < policyId) "规则不存在"
    let before := (db.policies.find? policyId).filter fun p => p.mode = .standard
    confirmEdit lib before prepared req.confirmMatchAll
    ensure (before.isSome ∧
      collectionForbids db (.policy policyId) (leavesCollection prepared) = false)
      collectionChanged
    pure (policyId, { db with
      policies := db.policies.updateWhere
        (fun p => p.id = policyId && p.mode = .standard)
        (rewritten prepared conditions now)
        fun _ => ⟨rfl, rfl⟩ })

def saveClientEntryUserPolicy (db : RuleBase) (req : PolicySaveRequest) (newId now : Int) :
    Except String RuleBase := do
  let prepared ← normalizeClientEntryUserPolicySaveRequest lib req
  confirmNew req prepared
  validateClientEntryRuleUsers db prepared.conditions
  validateClientEntryRuleMembers db prepared.members
  let conditions ← encodeConditions lib.toStandardLibrary prepared.conditions
  let (policyId, db) ← writePolicy lib db req prepared conditions newId now
  require (replaceMembers db policyId prepared.members) "保存失败"

end

def deleteClientEntryUserPolicy (db : RuleBase) (id : Int) : Except String RuleBase := do
  ensure (0 < id) "规则不存在"
  let db := detachClientEntryCollectionMembers db (itemOfPolicy db id)
  let db := { db with members := db.members.deleteWhere fun m => m.policyId = id }
  ensure (∃ p ∈ db.policies, p.id = id) "规则不存在"
  let db := deleteGroups db
    ((db.groups.rows.filter fun g => g.policyId = id).map GroupRow.id)
  pure { db with
    policies := db.policies.deleteWhere fun p => p.id = id
    assignments := db.assignments.deleteWhere fun a => a.policyId = id
    collectionMembers := db.collectionMembers.deleteWhere fun m => m.item = .policy id }

def setClientEntryUserPolicyEnabled (db : RuleBase) (id enabled now : Int) :
    Except String RuleBase := do
  ensure (0 < id) "规则不存在"
  ensure (enabled = 0 ∨ enabled = 1) "规则状态无效"
  ensure (∃ p ∈ db.policies, p.id = id) "规则不存在"
  pure { db with
    policies := db.policies.updateWhere
      (fun p => p.id = id)
      (fun p => { p with enabled, updatedAt := now })
      fun _ => ⟨rfl, rfl⟩ }

/-- The `UPDATE`s of `SortClientEntryUserPolicies`, from the rule number `index` on. -/
def sortPoliciesFrom (now : Int) : RuleBase → Nat → List Int → Option RuleBase
  | db, _, [] => some db
  | db, index, id :: rest => do
    let db ← checked { db with
      policies := db.policies.updateWhere
        (fun p => p.id = id)
        (fun p => { p with sort := (index + 1) * clientEntryRuleSortStep, updatedAt := now })
        fun _ => ⟨rfl, rfl⟩ }
    sortPoliciesFrom now db (index + 1) rest

def sortClientEntryUserPolicies (db : RuleBase) (ids : List Int) (now : Int) :
    Except String RuleBase := do
  ensure (∀ id ∈ ids, 0 < id) "规则顺序无效"
  ensure ids.Nodup "规则顺序包含重复项"
  ensure (db.policies.rows.length = ids.length ∧ ∀ id ∈ ids, ∃ p ∈ db.policies, p.id = id)
    "规则列表已变化，请刷新后重试"
  require (sortPoliciesFrom now db 0 ids) "保存排序失败"

def clientEntryOrderConflict : String :=
  "规则列表已变化，请刷新后重试：入口排序版本或可见项已变化，需重新读取顺序及revision"

/-- The rows an order must name: the standard rules and the leaves. -/
def visibleItems (db : RuleBase) : List Item := (visibleRows db).map OrderRow.item

def sortClientEntryUserPolicyRows (db : RuleBase) (items : List Item) (now : Int) :
    Except String RuleBase := do
  ensure (∀ item ∈ items, 0 < item.id) "规则顺序无效"
  ensure items.Nodup "规则顺序包含重复项"
  ensure ((visibleItems db).length = items.length ∧ ∀ item ∈ items, item ∈ visibleItems db)
    clientEntryOrderConflict
  require (persistClientEntryVisibleOrder db items now) "保存排序失败"

structure OrderMoveRequest where
  items : List Item
  after : Item
  expectedRevision : String

def clientEntryOrderInvalid : String :=
  "入口排序参数无效：使用policy或split_group及真实ID，移动项不能包含锚点或重复项"

def validateClientEntryOrderItems (items : List Item) : Bool :=
  items ≠ [] && (∀ item ∈ items, 0 < item.id) && items.Nodup

def hexDigit (c : Char) : Bool := ('0' ≤ c && c ≤ '9') || ('a' ≤ c && c ≤ 'f')

def validateClientEntryOrderMove (req : OrderMoveRequest) : Bool :=
  req.items.length ≤ 100 && validateClientEntryOrderItems req.items &&
    validateClientEntryOrderItems [req.after] &&
    req.expectedRevision.toList.length = 64 && req.expectedRevision.toList.all hexDigit &&
    req.after ∉ req.items

/-- `planClientEntryOrderMove`; the digest of the rows stands for their revision. -/
def planClientEntryOrderMove (digest : List OrderRow → String) (rows : List OrderRow)
    (req : OrderMoveRequest) : Except String (List OrderRow × Bool) := do
  ensure (validateClientEntryOrderMove req) clientEntryOrderInvalid
  ensure (digest rows = req.expectedRevision) clientEntryOrderConflict
  ensure (∃ r ∈ rows, r.item = req.after) clientEntryOrderConflict
  let moved ← req.items.mapM fun item =>
    require (rows.find? fun r => r.item = item) clientEntryOrderConflict
  let out := (rows.filter fun r => r.item ∉ req.items).flatMap fun r =>
    if r.item = req.after then r :: moved else [r]
  pure (out, rows.map OrderRow.item ≠ out.map OrderRow.item)

def moveClientEntryVisibleRows (digest : List OrderRow → String) (db : RuleBase)
    (req : OrderMoveRequest) (now : Int) : Except String RuleBase := do
  let (ordered, changed) ← planClientEntryOrderMove digest (loadVisibleOrder db) req
  if changed then
    require (persistClientEntryVisibleOrder db (ordered.map OrderRow.item) now) "保存排序失败"
  else pure db

end ForestPanel.ClientEntry
