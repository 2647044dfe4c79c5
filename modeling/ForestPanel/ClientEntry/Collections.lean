import ForestPanel.ClientEntry.Split

/-!
# Entry collections

A collection shares one host and one resolve flag among standard rules and leaves. The
operations hold the lock on the visible order, so one runs after the other.
-/
namespace ForestPanel.ClientEntry

open Outcome Relational

/-- The id `0` asks for a new collection. -/
structure CollectionSaveRequest where
  id : Int
  name : String
  entryHost : String
  resolveEntryHost : Int
  items : List Item
  version : Int

def clientEntryCollectionChanged : String := "入口合集或成员已变化，请刷新后重试"

def itemBefore (a b : Item) : Bool :=
  if kindName a ≠ kindName b then kindName a < kindName b else a.id ≤ b.id

def normalizeClientEntryCollectionSaveRequest (lib : EntryLibrary) (req : CollectionSaveRequest) :
    Except String CollectionSaveRequest := do
  let name := trimSpace req.name
  ensure (name ≠ "" ∧ name.length ≤ 255) "合集名称不能为空且不能超过 255 个字符"
  let host ← (normalizeHost lib req.entryHost).mapError fun _ => "请填写有效的统一入口域名或 IP"
  ensure (req.resolveEntryHost = 0 ∨ req.resolveEntryHost = 1) "解析域名下发 IP 设置无效"
  ensure (req.id = 0 ∨ (0 < req.id ∧ 0 < req.version)) clientEntryCollectionChanged
  let minimum := if req.id = 0 then 2 else 1
  ensure (minimum ≤ req.items.length ∧ req.items.length ≤ 10000)
    ("合集至少需要 " ++ toString minimum ++ " 个分组，最多 10000 个")
  ensure ((∀ item ∈ req.items, 0 < item.id) ∧ req.items.Nodup) "合集成员无效或重复"
  pure { req with
    name
    entryHost := host
    items := req.items.insertionSort fun a b => itemBefore a b = true }

def canJoin (db : RuleBase) : Item → Bool
  | .policy id => ∃ p ∈ db.policies, p.id = id ∧ p.mode = .standard ∧ p.action = .override
  | .splitGroup id =>
    ∃ g ∈ db.groups, g.id = id ∧ db.isSplit g.policyId = true ∧ isLeaf db.groups id = true

def writeEntry (entryHost : String) (resolve now : Int) (db : RuleBase) : Item → RuleBase
  | .policy id => { db with
      policies := db.policies.updateWhere
        (fun p => p.id = id)
        (fun p => { p with entryHost, resolveEntryHost := resolve, updatedAt := now })
        fun _ => ⟨rfl, rfl⟩ }
  | .splitGroup id => { db with
      groups := db.groups.updateWhere
        (fun g => g.id = id)
        (fun g => { g with entryHost, resolveEntryHost := some resolve, updatedAt := now })
        fun _ => ⟨rfl, rfl⟩ }

def writeMembers (collectionId : Int) (entryHost : String) (resolve now : Int) :
    RuleBase → List Item → Option RuleBase
  | db, [] => some db
  | db, item :: rest => do
    let collectionMembers ← db.collectionMembers.insert? ⟨collectionId, item⟩
    writeMembers collectionId entryHost resolve now
      (writeEntry entryHost resolve now { db with collectionMembers } item) rest

/-- `lockClientEntryCollectionVersion`. -/
def atVersion (db : RuleBase) (id version : Int) : Prop :=
  ∃ c ∈ db.collections, c.id = id ∧ c.version = version

instance (db : RuleBase) (id version : Int) : Decidable (atVersion db id version) :=
  inferInstanceAs (Decidable (∃ _ ∈ _, _))

def writeCollection (db : RuleBase) (prepared : CollectionSaveRequest) (newId : Int) :
    Except String (Int × RuleBase) :=
  if prepared.id = 0 then do
    ensure (0 < newId) "保存失败"
    let collections ← require (db.collections.insert?
      ⟨newId, prepared.name, prepared.entryHost, some prepared.resolveEntryHost, 1⟩) "保存失败"
    pure (newId, { db with collections })
  else
    .ok (prepared.id, { db with
      collections := db.collections.updateWhere
        (fun c => c.id = prepared.id)
        (fun c => { c with
          name := prepared.name
          entryHost := prepared.entryHost
          resolveEntryHost := some prepared.resolveEntryHost
          version := c.version + 1 })
        fun _ => ⟨rfl, rfl⟩ })

def saveClientEntryCollection (lib : EntryLibrary) (db : RuleBase) (req : CollectionSaveRequest)
    (newId now : Int) : Except String RuleBase := do
  let prepared ← normalizeClientEntryCollectionSaveRequest lib req
  ensure (prepared.id = 0 ∨ atVersion db prepared.id prepared.version) clientEntryCollectionChanged
  ensure (∀ item ∈ prepared.items, canJoin db item = true)
    "只能合并覆盖入口的普通规则或当前固定名单分组，请刷新列表"
  ensure (∀ item ∈ prepared.items, ∀ m ∈ db.collectionMembers, m.item = item →
    m.collectionId = prepared.id) "所选分组已加入其他合集，请先移出原合集"
  let (id, db) ← writeCollection db prepared newId
  let db := { db with
    collectionMembers := db.collectionMembers.deleteWhere fun m => m.collectionId = id }
  require (writeMembers id prepared.entryHost prepared.resolveEntryHost now db prepared.items)
    "保存失败"

def deleteClientEntryCollection (db : RuleBase) (id version : Int) : Except String RuleBase := do
  ensure (0 < id ∧ 0 < version) clientEntryCollectionChanged
  ensure (atVersion db id version) clientEntryCollectionChanged
  pure { db with
    collections := db.collections.deleteWhere fun c => c.id = id
    collectionMembers := db.collectionMembers.deleteWhere fun m => m.collectionId = id }

def removeClientEntryCollectionMember (db : RuleBase) (id version : Int) (item : Item) :
    Except String RuleBase := do
  ensure (0 < id ∧ 0 < version ∧ 0 < item.id) clientEntryCollectionChanged
  ensure (atVersion db id version) clientEntryCollectionChanged
  ensure (∃ m ∈ db.collectionMembers, m.collectionId = id ∧ m.item = item)
    clientEntryCollectionChanged
  let collectionMembers := db.collectionMembers.deleteWhere fun m =>
    m.collectionId = id && m.item = item
  pure { db with
    collectionMembers
    collections := (db.collections.updateWhere
      (fun c => c.id = id)
      (fun c => { c with version := c.version + 1 })
      raisedVersion_keys).deleteWhere fun c =>
        c.id = id && !decide (∃ m ∈ collectionMembers, m.collectionId = id) }

/-- A request to the rules, with everything the environment chooses. -/
inductive Request
  | savePolicy (req : PolicySaveRequest) (newId now : Int)
  | deletePolicy (id : Int)
  | setEnabled (id enabled now : Int)
  | createSplit (req : SplitCreateRequest) (newId : Int) (new : NewGroups) (now : Int)
  | convert (req : SplitConvertRequest) (pool : Except String (List BackupIP)) (new : NewGroups)
      (now : Int)
  | splitGroup (req : GroupSplitRequest) (pool : Except String (List BackupIP)) (new : NewGroups)
      (now : Int)
  | autoSplit (operation : AutoSplitOperation) (pool : Except String (List BackupIP))
      (new : NewGroups) (now : Int)
  | updateGroup (req : GroupHostUpdateRequest) (now : Int)
  | moveToRoot (policyId groupId now : Int)
  | sortGroups (policyId : Int) (ids : List Int) (now : Int)
  | sortPolicies (ids : List Int) (now : Int)
  | sortRows (items : List Item) (now : Int)
  | moveRows (digest : List OrderRow → String) (req : OrderMoveRequest) (now : Int)
  | saveCollection (req : CollectionSaveRequest) (newId now : Int)
  | deleteCollection (id version : Int)
  | removeMember (id version : Int) (item : Item)
  /-- Users are deleted with their assignments. -/
  | deleteUsers (ids : List Int)
  /-- A node is deleted with its memberships. -/
  | deleteServer (serverType : String) (serverId : Int)
  /-- The rest of the panel registers users and nodes and notes subscriptions. -/
  | outside (users : Table UserRow.id UserRow.id)
      (activity : Table ActivityRow.userId ActivityRow.userId) (servers : List (String × Int))

def handle (lib : EntryLibrary) (db : RuleBase) : Request → Except String RuleBase
  | .savePolicy req newId now => saveClientEntryUserPolicy lib db req newId now
  | .deletePolicy id => deleteClientEntryUserPolicy db id
  | .setEnabled id enabled now => setClientEntryUserPolicyEnabled db id enabled now
  | .createSplit req newId new now => createClientEntryUserPolicySplit lib db req newId new now
  | .convert req pool new now => convertClientEntryUserPolicyToSplit lib db req pool new now
  | .splitGroup req pool new now => splitClientEntryUserPolicyGroup lib db req pool new now
  | .autoSplit operation pool new now =>
    processNextClientEntryAutoSplit lib db operation pool new now
  | .updateGroup req now => updateClientEntryUserPolicySplitGroupHost lib db req now
  | .moveToRoot policyId groupId now =>
    moveClientEntryUserPolicySplitGroupToRoot db policyId groupId now
  | .sortGroups policyId ids now => sortClientEntryUserPolicySplitGroups db policyId ids now
  | .sortPolicies ids now => sortClientEntryUserPolicies db ids now
  | .sortRows items now => sortClientEntryUserPolicyRows db items now
  | .moveRows digest req now => moveClientEntryVisibleRows digest db req now
  | .saveCollection req newId now => saveClientEntryCollection lib db req newId now
  | .deleteCollection id version => deleteClientEntryCollection db id version
  | .removeMember id version item => removeClientEntryCollectionMember db id version item
  | .deleteUsers ids => .ok { db with
      users := db.users.deleteWhere fun u => u.id ∈ ids
      activity := db.activity.deleteWhere fun a => a.userId ∈ ids
      assignments := db.assignments.deleteWhere fun a => a.userId ∈ ids }
  | .deleteServer serverType serverId => .ok { db with
      members := db.members.deleteWhere fun m =>
        m.serverType = serverType && m.serverId = serverId
      servers := db.servers.filter fun s => s ≠ (serverType, serverId) }
  | .outside users activity servers => .ok { db with users, activity, servers }

/-- One request: its transaction commits or is rolled back. -/
def step (lib : EntryLibrary) (db : RuleBase) (request : Request) : RuleBase :=
  commit db (handle lib db request)

end ForestPanel.ClientEntry
