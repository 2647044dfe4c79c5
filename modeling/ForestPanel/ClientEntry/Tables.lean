import ForestPanel.ClientEntry.Hosts
import ForestPanel.Lib.Table
import Mathlib.Data.List.Sort

/-!
# The tables of the client-entry rules

Standard rules and split rules share one table. A split rule keeps its users in the
groups of a tree; the groups without children are its leaves. The rows the administrator
sees and orders are the standard rules and the leaves: their order is kept in `sort` of
the one table and in `global_sort` of the other.

Foreign keys with `ON DELETE CASCADE` are written into the deletions; a column's integer
type is checked by `checked` after a statement that writes it.
-/
namespace ForestPanel.ClientEntry

open Relational

inductive Mode
  | standard
  | split
deriving DecidableEq, Repr

inductive Action
  | override
  | original
  | hide
deriving DecidableEq, Repr

structure PolicyRow where
  id : Int
  name : String
  sort : Int
  mode : Mode
  action : Action
  conditions : String
  entryHost : String
  resolveEntryHost : Int
  extraNodes : List String
  enabled : Int
  remarks : String
  updatedAt : Int
deriving DecidableEq

structure GroupRow where
  id : Int
  policyId : Int
  parentId : Option Int
  name : String
  path : String
  entryHost : String
  sort : Int
  globalSort : Option Int
  resolveEntryHost : Option Int
  updatedAt : Int
deriving DecidableEq

structure AssignmentRow where
  policyId : Int
  userId : Int
  groupId : Int
deriving DecidableEq

structure MemberRow where
  policyId : Int
  serverType : String
  serverId : Int
  sort : Int
deriving DecidableEq

/-- A visible row by kind and id. -/
inductive Item
  | policy (id : Int)
  | splitGroup (id : Int)
deriving DecidableEq, Repr

structure CollectionRow where
  id : Int
  name : String
  entryHost : String
  resolveEntryHost : Option Int
  version : Int
deriving DecidableEq

/-- The check constraint on the two id columns makes a member one item. -/
structure CollectionMemberRow where
  collectionId : Int
  item : Item
deriving DecidableEq

structure UserRow where
  id : Int
  email : String
  planId : Option Int
  createdAt : Int
deriving DecidableEq

structure ActivityRow where
  userId : Int
  lastSubscribeAt : Int
deriving DecidableEq

abbrev PolicyTable := Table PolicyRow.id PolicyRow.id
abbrev GroupTable := Table GroupRow.id fun g => (g.policyId, g.path)
abbrev AssignmentTable :=
  Table (fun a : AssignmentRow => (a.policyId, a.userId)) fun a => (a.policyId, a.userId)
abbrev MemberTable :=
  Table (fun m : MemberRow => (m.policyId, m.serverType, m.serverId))
    fun m => (m.policyId, m.serverType, m.serverId)
abbrev CollectionTable := Table CollectionRow.id CollectionRow.id
abbrev CollectionMemberTable := Table CollectionMemberRow.item CollectionMemberRow.item

structure RuleBase where
  policies : PolicyTable
  groups : GroupTable
  assignments : AssignmentTable
  members : MemberTable
  collections : CollectionTable
  collectionMembers : CollectionMemberTable
  users : Table UserRow.id UserRow.id
  activity : Table ActivityRow.userId ActivityRow.userId
  servers : List (String × Int)

def emptyRuleBase : RuleBase :=
  ⟨Table.empty, Table.empty, Table.empty, Table.empty, Table.empty, Table.empty, Table.empty,
    Table.empty, []⟩

def int4 (n : Int) : Bool := -2147483648 ≤ n && n ≤ 2147483647
def int8 (n : Int) : Bool := -9223372036854775808 ≤ n && n ≤ 9223372036854775807

/-- The order columns hold numbers of their types. -/
def RuleBase.Fits (db : RuleBase) : Prop :=
  (∀ p ∈ db.policies, int4 p.sort = true) ∧ ∀ g ∈ db.groups, g.globalSort.all int8 = true

instance (db : RuleBase) : Decidable db.Fits := inferInstanceAs (Decidable (_ ∧ _))

/-- The result of a statement, unless a number overflows its column. -/
def checked (db : RuleBase) : Option RuleBase := if db.Fits then some db else none

theorem checked_eq_some {db db' : RuleBase} : checked db = some db' ↔ db.Fits ∧ db = db' := by
  simp [checked, Option.ite_none_right_eq_some]

/-- `NOT EXISTS` a child. -/
def isLeaf (groups : GroupTable) (id : Int) : Bool := ¬∃ child ∈ groups, child.parentId = some id

theorem isLeaf_iff {groups : GroupTable} {id : Int} :
    isLeaf groups id = true ↔ ∀ child ∈ groups, child.parentId ≠ some id := by
  simp [isLeaf]

def RuleBase.isSplit (db : RuleBase) (policyId : Int) : Bool :=
  ∃ p ∈ db.policies, p.id = policyId ∧ p.mode = .split

/-- The leaf a request names, as the rule operations look it up. -/
def RuleBase.leaf? (db : RuleBase) (policyId groupId : Int) : Option GroupRow :=
  (db.groups.find? groupId).filter fun g =>
    g.policyId = policyId && db.isSplit policyId && isLeaf db.groups groupId

theorem leaf?_eq_some {db : RuleBase} {policyId groupId : Int} {g : GroupRow} :
    db.leaf? policyId groupId = some g ↔ g ∈ db.groups ∧ g.id = groupId ∧
      g.policyId = policyId ∧ (∃ p ∈ db.policies, p.id = policyId ∧ p.mode = .split) ∧
      isLeaf db.groups groupId = true := by
  simp only [RuleBase.leaf?, RuleBase.isSplit, Option.filter_eq_some_iff, Table.find?_eq_some,
    Bool.and_eq_true, decide_eq_true_eq, and_assoc]

def clientEntryRuleSortStep : Int := 10

structure OrderRow where
  item : Item
  policyId : Int
  name : String
  policyName : String
  sort : Int
  enabled : Int
  updatedAt : Int
  policyUpdatedAt : Int
deriving DecidableEq

def standardRow (p : PolicyRow) : OrderRow :=
  ⟨.policy p.id, p.id, p.name, p.name, p.sort, p.enabled, p.updatedAt, p.updatedAt⟩

def leafRow (p : PolicyRow) (g : GroupRow) : OrderRow :=
  ⟨.splitGroup g.id, p.id, g.name, p.name, g.globalSort.getD p.sort, p.enabled, g.updatedAt,
    p.updatedAt⟩

/-- The row of a group, when its rule is split and it has no children. -/
def RuleBase.leafRow? (db : RuleBase) (g : GroupRow) : Option OrderRow :=
  ((db.policies.find? g.policyId).filter fun p => p.mode = .split && isLeaf db.groups g.id).map
    fun p => leafRow p g

def visibleRows (db : RuleBase) : List OrderRow :=
  (db.policies.rows.filter fun p => p.mode ≠ .split).map standardRow ++
    db.groups.rows.filterMap db.leafRow?

def kindName : Item → String
  | .policy _ => "policy"
  | .splitGroup _ => "split_group"

def Item.id : Item → Int
  | .policy id => id
  | .splitGroup id => id

/-- The order of the visible rows: by position, rule, kind and id. -/
def rowBefore (a b : OrderRow) : Bool :=
  if a.sort ≠ b.sort then a.sort < b.sort
  else if a.policyId ≠ b.policyId then a.policyId < b.policyId
  else if kindName a.item ≠ kindName b.item then kindName a.item < kindName b.item
  else a.item.id ≤ b.item.id

def loadVisibleOrder (db : RuleBase) : List OrderRow :=
  (visibleRows db).insertionSort fun a b => rowBefore a b = true

/-- `COALESCE(MAX(visible_sort), 0)`. -/
def lastVisibleSort (db : RuleBase) : Int :=
  ((db.policies.rows.filter fun p => p.mode ≠ .split).map PolicyRow.sort ++
    (db.groups.rows.filter fun g => db.isSplit g.policyId && isLeaf db.groups g.id).filterMap
      GroupRow.globalSort).max?.getD 0

def nextClientEntryRuleSort (db : RuleBase) : Int :=
  let last := lastVisibleSort db
  if last < 0 ∨ 4611686018427387904 < last then clientEntryRuleSortStep
  else last + clientEntryRuleSortStep

def firstLeafSort (groups : GroupTable) (policyId : Int) : Option Int :=
  ((groups.rows.filter fun g => g.policyId = policyId && isLeaf groups g.id).filterMap
    GroupRow.globalSort).min?

/-- A split rule stands where its first leaf stands. -/
def syncSplitPolicySorts (db : RuleBase) : Option RuleBase :=
  checked { db with
    policies := db.policies.updateWhere
      (fun p => p.mode = .split && (firstLeafSort db.groups p.id).isSome)
      (fun p => { p with sort := (firstLeafSort db.groups p.id).getD p.sort })
      fun _ => ⟨rfl, rfl⟩ }

def shiftVisibleSortsAfter (db : RuleBase) (position delta : Int) : Option RuleBase := do
  let db ← checked { db with
    policies := db.policies.updateWhere
      (fun p => p.mode ≠ .split && position < p.sort)
      (fun p => { p with sort := p.sort + delta })
      fun _ => ⟨rfl, rfl⟩
    groups := db.groups.updateWhere
      (fun g => g.globalSort.any fun s => position < s)
      (fun g => { g with globalSort := g.globalSort.map fun s => s + delta })
      fun _ => ⟨rfl, rfl⟩ }
  syncSplitPolicySorts db

/-- `INSERT … RETURNING id`, the id taken from a sequence of positive numbers. -/
def insertPolicy (db : RuleBase) (p : PolicyRow) : Option RuleBase :=
  if 0 < p.id then do
    let policies ← db.policies.insert? p
    checked { db with policies }
  else none

def insertGroup (db : RuleBase) (g : GroupRow) : Option RuleBase :=
  if 0 < g.id then do
    let groups ← db.groups.insert? g
    checked { db with groups }
  else none

def insertAssignments (db : RuleBase) (rows : List AssignmentRow) : Option RuleBase := do
  let assignments ← db.assignments.insertAll? rows
  some { db with assignments }

/-- The members of a rule are written anew, numbered in steps. -/
def replaceMembers (db : RuleBase) (policyId : Int) (members : List (String × Int)) :
    Option RuleBase := do
  let rows := members.mapIdx fun index m =>
    ⟨policyId, m.1, m.2, (index + 1) * clientEntryRuleSortStep⟩
  let members ← (db.members.deleteWhere fun m => m.policyId = policyId).insertAll? rows
  some { db with members }

theorem raisedVersion_keys (c : CollectionRow) :
    ({ c with version := c.version + 1 } : CollectionRow).id = c.id ∧
      ({ c with version := c.version + 1 } : CollectionRow).id = c.id := ⟨rfl, rfl⟩

/-- Members that are no longer what they were leave their collections; a collection
without members is deleted. -/
def detachClientEntryCollectionMembers (db : RuleBase) (gone : Item → Bool) : RuleBase :=
  let collectionMembers := db.collectionMembers.deleteWhere fun m => gone m.item
  let touched := (db.collectionMembers.rows.filter fun m => gone m.item).map
    CollectionMemberRow.collectionId
  { db with
    collectionMembers
    collections := (db.collections.updateWhere
      (fun c => c.id ∈ touched)
      (fun c => { c with version := c.version + 1 })
      raisedVersion_keys).deleteWhere fun c => ¬∃ m ∈ collectionMembers, m.collectionId = c.id }

def itemOfPolicy (db : RuleBase) (policyId : Int) (item : Item) : Bool :=
  item = .policy policyId || ∃ g ∈ db.groups, g.policyId = policyId ∧ item = .splitGroup g.id

/-- The groups that go with a deleted group: its descendants. -/
def descendants (groups : GroupTable) : Nat → List Int → List Int
  | 0, ids => ids
  | fuel + 1, ids =>
    descendants groups fuel
      (ids ++ (groups.rows.filter fun g => g.parentId.any (· ∈ ids)).map GroupRow.id)

/-- `DELETE` of groups, with everything that refers to them. -/
def deleteGroups (db : RuleBase) (ids : List Int) : RuleBase :=
  let dead := descendants db.groups db.groups.rows.length ids
  { db with
    groups := db.groups.deleteWhere fun g => g.id ∈ dead
    assignments := db.assignments.deleteWhere fun a => a.groupId ∈ dead
    collectionMembers := db.collectionMembers.deleteWhere fun m =>
      match m.item with
      | .policy _ => false
      | .splitGroup id => id ∈ dead }

/-- The `UPDATE`s of `persistClientEntryVisibleOrder`, from the item number `index` on. -/
def persistFrom (now : Int) : RuleBase → Nat → List Item → Option RuleBase
  | db, _, [] => some db
  | db, index, .policy id :: rest =>
    if ∃ p ∈ db.policies, p.id = id ∧ p.mode ≠ .split then do
      let db ← checked { db with
        policies := db.policies.updateWhere
          (fun p => p.id = id)
          (fun p => { p with sort := (index + 1) * clientEntryRuleSortStep, updatedAt := now })
          fun _ => ⟨rfl, rfl⟩ }
      persistFrom now db (index + 1) rest
    else none
  | db, index, .splitGroup id :: rest =>
    if ∃ g ∈ db.groups, g.id = id ∧ db.isSplit g.policyId = true ∧ isLeaf db.groups id = true then do
      let db ← checked { db with
        groups := db.groups.updateWhere
          (fun g => g.id = id)
          (fun g => { g with
            globalSort := some ((index + 1) * clientEntryRuleSortStep)
            updatedAt := now })
          fun _ => ⟨rfl, rfl⟩ }
      persistFrom now db (index + 1) rest
    else none

def persistClientEntryVisibleOrder (db : RuleBase) (items : List Item) (now : Int) :
    Option RuleBase := do
  let db ← persistFrom now db 0 items
  syncSplitPolicySorts db

end ForestPanel.ClientEntry
