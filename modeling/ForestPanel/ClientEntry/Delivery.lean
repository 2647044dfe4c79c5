import ForestPanel.ClientEntry.Collections
import ForestPanel.Lib.First

/-!
# Simulation and delivery

The administrator's simulation lists the rules with their members and groups and picks the
first that matches a user; a subscription loads the rules of the user with one query and
walks them for every server. Both read the same tables at one time.
-/
namespace ForestPanel.ClientEntry

open FirstMatch Outcome Relational

/-- A split rule keeps its conditions on the user agent only. -/
def runtimeConditions (mode : Mode) (values : List Condition) : List Condition :=
  if mode = .split then values.filter fun c => c.field = "ua" else values

structure SplitGroupRecord where
  id : Int
  name : String
  path : String
  entryHost : String
  sort : Int
  globalSort : Option Int
  resolveEntryHost : Option Int
  isLeaf : Bool

structure PolicyRecord where
  id : Int
  name : String
  sort : Int
  mode : Mode
  action : Action
  conditions : List Condition
  entryHost : String
  resolveEntryHost : Int
  enabled : Int
  members : List (String × Int)
  splitGroups : List SplitGroupRecord

section

variable (lib : EntryLibrary)

def memberRows (db : RuleBase) (policyId : Int) : List MemberRow :=
  (db.members.rows.filter fun m => m.policyId = policyId).insertionSort fun a b => a.sort ≤ b.sort

def loadClientEntryUserPolicyMembers (db : RuleBase) (policyId : Int) : List (String × Int) :=
  ((memberRows db policyId).map fun m => (lib.lower (trimSpace m.serverType), m.serverId)).filter
    fun m => m.1 ≠ "" && 0 < m.2

def splitGroupRecord (groups : GroupTable) (g : GroupRow) : SplitGroupRecord :=
  ⟨g.id, trimSpace g.name, trimSpace g.path, trimSpace g.entryHost, g.sort, g.globalSort,
    g.resolveEntryHost, isLeaf groups g.id⟩

/-- Leaves first, then by the places, `NULLS LAST`, the path and the id. -/
def splitGroupBefore (a b : SplitGroupRecord) : Bool :=
  if a.isLeaf ≠ b.isLeaf then a.isLeaf
  else if a.globalSort ≠ b.globalSort then
    match a.globalSort, b.globalSort with
    | some s, some t => s < t
    | some _, none => true
    | none, _ => false
  else if a.sort ≠ b.sort then a.sort < b.sort
  else if a.path ≠ b.path then a.path < b.path
  else a.id ≤ b.id

def loadClientEntryUserPolicySplitGroups (db : RuleBase) (policyId : Int) :
    List SplitGroupRecord :=
  ((db.groups.rows.filter fun g => g.policyId = policyId).map
    (splitGroupRecord db.groups)).insertionSort fun a b => splitGroupBefore a b = true

def policyRecord (db : RuleBase) (p : PolicyRow) : Except String PolicyRecord := do
  let conditions ← (decodeConditions lib.toStandardLibrary p.conditions).mapError fun e =>
    "decode client entry rule " ++ toString p.id ++ " conditions: " ++ e
  pure
    { id := p.id
      name := trimSpace p.name
      sort := p.sort
      mode := p.mode
      action := p.action
      conditions
      entryHost := trimSpace p.entryHost
      resolveEntryHost := p.resolveEntryHost
      enabled := p.enabled
      members := loadClientEntryUserPolicyMembers lib db p.id
      splitGroups :=
        if p.mode = .split then loadClientEntryUserPolicySplitGroups db p.id else [] }

def listClientEntryUserPolicies (db : RuleBase) : Except String (List PolicyRecord) :=
  (db.policies.rows.insertionSort (ByKeys PolicyRow.sort PolicyRow.id)).mapM (policyRecord lib db)

def assignmentsOf (db : RuleBase) (userId policyId : Int) : Option Int :=
  (db.assignments.find? (policyId, userId)).map AssignmentRow.groupId

def registrationDays (createdAt now : Int) : Int :=
  if createdAt ≤ 0 ∨ now < createdAt then -1 else (now - createdAt) / 86400

def simulationSubject (user : UserRow) (ua : String) (now : Int) : Subject :=
  ⟨user.id, lib.lower (trimSpace user.email), registrationDays user.createdAt now,
    user.planId.getD 0, ua⟩

def clientEntrySimulationHasMember (members : List (String × Int)) (memberType : String)
    (memberID : Int) : Bool :=
  if memberType = "" then members ≠ []
  else members.any fun m => lib.equalFold (trimSpace m.1) memberType && m.2 = memberID

structure SimulationCandidate where
  policy : PolicyRecord
  visibleSort : Int

/-- The leaf of a split rule that the user is assigned to takes the place of the rule. -/
def assignedCandidate (assignments : Int → Option Int) (policy : PolicyRecord) :
    Option SimulationCandidate := do
  let groupID ← assignments policy.id
  let group ← policy.splitGroups.find? fun g => g.id = groupID && g.isLeaf
  some
    { policy := { policy with
        name := group.name
        entryHost := trimSpace group.entryHost
        resolveEntryHost := group.resolveEntryHost.getD policy.resolveEntryHost
        splitGroups := [] }
      visibleSort := group.globalSort.getD policy.sort }

def simulationCandidate (assignments : Int → Option Int) (subject : Subject) (memberType : String)
    (memberID : Int) (policy : PolicyRecord) : Option SimulationCandidate :=
  if policy.enabled = 0 ∨
      clientEntrySimulationHasMember lib policy.members memberType memberID = false then none
  else if matchAll lib.toStandardLibrary (runtimeConditions policy.mode policy.conditions)
      subject = false then none
  else
    match policy.mode with
    | .standard => some ⟨policy, policy.sort⟩
    | .split => assignedCandidate assignments policy

def selectClientEntryUserPolicySimulation (policies : List PolicyRecord)
    (assignments : Int → Option Int) (subject : Subject) (memberType : String) (memberID : Int) :
    Option PolicyRecord :=
  let candidates := policies.filterMap
    (simulationCandidate lib assignments subject memberType memberID)
  (candidates.insertionSort
    (ByKeys SimulationCandidate.visibleSort fun c => c.policy.id)).head?.map
      SimulationCandidate.policy

structure LoadedPolicy where
  id : Int
  mode : Mode
  action : Action
  entryHost : String
  assignedEntryHost : String
  resolveEntryHost : Bool
  conditions : List Condition
  members : List (String × Int)

/-- A row of the query: a rule, one of its members, and the group of the user in it. -/
structure JoinedRow where
  policy : PolicyRow
  group : Option GroupRow
  member : MemberRow

def JoinedRow.id (row : JoinedRow) : Int := row.policy.id

/-- `CASE WHEN p.mode = 'split' THEN COALESCE(split_group.global_sort, p.sort) ELSE p.sort END`. -/
def JoinedRow.visibleSort (row : JoinedRow) : Int :=
  if row.policy.mode = .split then (row.group.bind GroupRow.globalSort).getD row.policy.sort
  else row.policy.sort

def JoinedRow.Before (a b : JoinedRow) : Prop :=
  ByKeys JoinedRow.visibleSort JoinedRow.id a b ∧
    (ByKeys JoinedRow.visibleSort JoinedRow.id b a → a.member.sort ≤ b.member.sort)

instance : DecidableRel JoinedRow.Before := fun _ _ => inferInstanceAs (Decidable (_ ∧ (_ → _)))

/-- The `LEFT JOIN` of the group a user is assigned to. -/
def assignedGroup (db : RuleBase) (userId policyId : Int) : Option GroupRow := do
  let groupId ← assignmentsOf db userId policyId
  (db.groups.find? groupId).filter fun g => g.policyId = policyId

def joinedRows (db : RuleBase) (userId : Int) : List JoinedRow :=
  ((db.policies.rows.filter fun p => p.enabled = 1).flatMap fun p =>
    let group := assignedGroup db userId p.id
    if p.mode = .split ∧ group = none then []
    else (db.members.rows.filter fun m => m.policyId = p.id).map (JoinedRow.mk p group)
    ).insertionSort JoinedRow.Before

def clientEntryPolicyHasMember (values : List (String × Int)) (target : String × Int) : Bool :=
  values.any fun v => lib.equalFold (trimSpace v.1) (trimSpace target.1) && v.2 = target.2

def loadedPolicy (row : JoinedRow) : Except String LoadedPolicy := do
  let conditions ← (decodeConditions lib.toStandardLibrary row.policy.conditions).mapError fun e =>
    "decode client entry rule " ++ toString row.policy.id ++ " conditions: " ++ e
  pure
    { id := row.policy.id
      mode := row.policy.mode
      action := row.policy.action
      entryHost := trimSpace row.policy.entryHost
      assignedEntryHost := trimSpace ((row.group.map GroupRow.entryHost).getD "")
      resolveEntryHost := (row.group.bind GroupRow.resolveEntryHost).getD
        row.policy.resolveEntryHost ≠ 0
      conditions
      members := [] }

def ensureLoaded (loaded : List LoadedPolicy) (row : JoinedRow) :
    Except String (List LoadedPolicy) :=
  if loaded.any fun l => l.id = row.id then .ok loaded
  else do
    let policy ← loadedPolicy lib row
    pure (loaded ++ [policy])

def LoadedPolicy.addMember (target : String × Int) (l : LoadedPolicy) : LoadedPolicy :=
  if target.1 ≠ "" ∧ 0 < target.2 ∧ clientEntryPolicyHasMember lib l.members target = false then
    { l with members := l.members ++ [target] }
  else l

def addRow (loaded : List LoadedPolicy) (row : JoinedRow) : Except String (List LoadedPolicy) :=
  if row.id ≤ 0 then .ok loaded
  else do
    let loaded ← ensureLoaded lib loaded row
    let target := (lib.lower (trimSpace row.member.serverType), row.member.serverId)
    pure (loaded.map fun l => if l.id = row.id then l.addMember lib target else l)

def loadClientEntryUserPolicies (db : RuleBase) (userId : Int) :
    Except String (List LoadedPolicy) := do
  let loaded ← (joinedRows db userId).foldlM (addRow lib) []
  pure (loaded.filter fun l => l.members ≠ [])

def subscriptionSubject (user : UserRow) (ua : String) (now : Int) : Subject :=
  ⟨user.id, user.email, registrationDays user.createdAt now, user.planId.getD 0, ua⟩

structure Server where
  serverType : String
  id : Int
  host : String
  entryOnly : Bool
  policyId : Option Int
deriving DecidableEq

/-- What a rule says about a server. -/
structure Ruling where
  policyId : Int
  action : Action
  entryHost : String
  resolveEntryHost : Bool
deriving DecidableEq

def PolicyRecord.ruling (record : PolicyRecord) : Ruling :=
  ⟨record.id, record.action, record.entryHost, record.resolveEntryHost ≠ 0⟩

def LoadedPolicy.ruling (policy : LoadedPolicy) : Ruling :=
  ⟨policy.id, policy.action,
    if policy.mode = .split then policy.assignedEntryHost else policy.entryHost,
    policy.resolveEntryHost⟩

/-- The rule the walk over the rules stops at. -/
def matchedPolicy (subject : Subject) (policies : List LoadedPolicy) (serverType : String)
    (serverId : Int) : Option LoadedPolicy :=
  policies.find? fun policy =>
    clientEntryPolicyHasMember lib policy.members (serverType, serverId) &&
      matchAll lib.toStandardLibrary (runtimeConditions policy.mode policy.conditions) subject &&
      (policy.mode ≠ .split || policy.assignedEntryHost ≠ "")

/-- The server under a ruling; `resolve` answers for a host, a user and a rule. -/
def applyRuling (resolve : String → Int → Int → String) (userId : Int) (server : Server) :
    Option Ruling → Option Server
  | none => if server.entryOnly then none else some server
  | some ruling =>
    match ruling.action with
    | .hide => none
    | .original => some { server with policyId := some ruling.policyId }
    | .override => some { server with
        policyId := some ruling.policyId
        host :=
          if ruling.resolveEntryHost then resolve ruling.entryHost userId ruling.policyId
          else ruling.entryHost }

def applyClientEntryUserPoliciesWithResolver (resolve : String → Int → Int → String)
    (servers : List Server) (subject : Subject) (policies : List LoadedPolicy) : List Server :=
  servers.filterMap fun server =>
    applyRuling resolve subject.userID server
      ((matchedPolicy lib subject policies (lib.lower (trimSpace server.serverType)) server.id).map
        LoadedPolicy.ruling)

end

end ForestPanel.ClientEntry
