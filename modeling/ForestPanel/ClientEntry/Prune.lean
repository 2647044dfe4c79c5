import ForestPanel.ClientEntry.Tree

/-!
# Moving a leaf to the root

The move takes a child from its parent, and the loop deletes the ancestors this leaves
without children. `Emptied` is what holds in between: a tree, but for one inner group that
may have lost its last child. The loop ends because every ancestor has a shorter path, and
its count of children, taken before the move, still tells whether another child is left.
-/
namespace ForestPanel.ClientEntry

open Outcome Relational

theorem mem_descendants {groups : GroupTable} {ids : List Int}
    (closed : ∀ g ∈ groups, ∀ parent ∈ ids, g.parentId = some parent → g.id ∈ ids)
    (fuel : Nat) (id : Int) : id ∈ descendants groups fuel ids ↔ id ∈ ids := by
  induction fuel generalizing ids with
  | zero => rfl
  | succ fuel ih =>
    have below : ∀ g ∈ groups, (g.parentId.any fun parent => parent ∈ ids) = true → g.id ∈ ids := by
      intro g member any
      cases parent : g.parentId with
      | none =>
        rw [parent] at any
        cases any
      | some above =>
        rw [parent] at any
        exact closed g member above (of_decide_eq_true any) parent
    have same : ∀ id, id ∈ ids ++ (groups.rows.filter fun g =>
        g.parentId.any fun parent => parent ∈ ids).map GroupRow.id ↔ id ∈ ids := by
      intro id
      rw [List.mem_append, List.mem_map]
      constructor
      · rintro (direct | ⟨g, listed, rfl⟩)
        · exact direct
        · obtain ⟨member, any⟩ := List.mem_filter.mp listed
          exact below g member any
      · exact Or.inl
    rw [descendants, ih, same]
    intro g member parent above isParent
    rw [same] at above ⊢
    exact closed g member parent above isParent

section

variable {db : RuleBase} {ids : List Int}
  (closed : ∀ g ∈ db.groups, ∀ parent ∈ ids, g.parentId = some parent → g.id ∈ ids)

include closed

theorem mem_deleteGroups_groups (g : GroupRow) :
    g ∈ (deleteGroups db ids).groups ↔ g ∈ db.groups ∧ g.id ∉ ids := by
  simp only [deleteGroups, Table.mem_deleteWhere, mem_descendants closed, decide_eq_false_iff_not]

theorem mem_deleteGroups_assignments (a : AssignmentRow) :
    a ∈ (deleteGroups db ids).assignments ↔ a ∈ db.assignments ∧ a.groupId ∉ ids := by
  simp only [deleteGroups, Table.mem_deleteWhere, mem_descendants closed, decide_eq_false_iff_not]

theorem mem_deleteGroups_collectionMembers (m : CollectionMemberRow) :
    m ∈ (deleteGroups db ids).collectionMembers ↔
      m ∈ db.collectionMembers ∧ ∀ id ∈ ids, m.item ≠ .splitGroup id := by
  simp only [deleteGroups, Table.mem_deleteWhere, mem_descendants closed]
  apply and_congr_right
  intro _
  cases m.item with
  | policy id => simp
  | splitGroup id =>
    simp only [decide_eq_false_iff_not, ne_eq, Item.splitGroup.injEq]
    constructor
    · rintro outside other listed rfl
      exact outside listed
    · exact fun distinct listed => distinct id listed rfl

end

structure Emptied (db : RuleBase) (emptied : Int) : Prop where
  positive : ∀ g ∈ db.groups, 0 < g.id
  owner : ∀ g ∈ db.groups, ∃ p ∈ db.policies, p.id = g.policyId ∧ p.mode = .split
  path : ∀ g ∈ db.groups, Shown g.path
  parent : ∀ g ∈ db.groups, ∀ parent, g.parentId = some parent →
    ∃ h ∈ db.groups, h.id = parent ∧ h.policyId = g.policyId ∧ h.path.length < g.path.length
  leaf : ∀ g ∈ db.groups, g.id ≠ emptied → isLeaf db.groups g.id = true →
    Shown g.entryHost ∧ g.globalSort.isSome = true
  inner : ∀ g ∈ db.groups, g.id = emptied ∨ isLeaf db.groups g.id = false →
    g.entryHost = "" ∧ g.globalSort = none
  assigned : ∀ a ∈ db.assignments, ∃ g ∈ db.groups, g.id = a.groupId ∧
    g.policyId = a.policyId ∧ isLeaf db.groups g.id = true
  unassigned : ∀ a ∈ db.assignments, a.groupId ≠ emptied

section

variable {db : RuleBase} {emptied : Int}

theorem Emptied.tree (state : Emptied db emptied)
    (fine : ∀ g ∈ db.groups, g.id = emptied → isLeaf db.groups emptied = false) : Tree db := by
  refine ⟨state.positive, state.owner, state.path, state.parent, ?_, ?_, state.assigned⟩
  · intro g member leaf
    by_cases same : g.id = emptied
    · have inner := fine g member same
      rw [same, inner] at leaf
      cases leaf
    · exact state.leaf g member same leaf
  · intro g member inner
    exact state.inner g member (Or.inr inner)

theorem Emptied.delete (state : Emptied db emptied) {g : GroupRow} (listed : g ∈ db.groups)
    (same : g.id = emptied) (childless : isLeaf db.groups emptied = true) {above : Int}
    (parent : ∀ id, g.parentId = some id → id = above) (root : g.parentId = none → above = emptied) :
    Emptied (deleteGroups db [emptied]) above := by
  have childless' := isLeaf_iff.mp childless
  have closed : ∀ h ∈ db.groups, ∀ parent ∈ [emptied], h.parentId = some parent →
      h.id ∈ [emptied] := by
    intro h member parent only below
    rw [List.mem_singleton.mp only] at below
    exact absurd below (childless' h member)
  have groups : ∀ h, h ∈ (deleteGroups db [emptied]).groups ↔ h ∈ db.groups ∧ h.id ≠ emptied := by
    intro h
    rw [mem_deleteGroups_groups closed, List.mem_singleton]
  have assignments : ∀ a, a ∈ (deleteGroups db [emptied]).assignments ↔
      a ∈ db.assignments ∧ a.groupId ≠ emptied := by
    intro a
    rw [mem_deleteGroups_assignments closed, List.mem_singleton]
  have more : ∀ id, isLeaf db.groups id = true →
      isLeaf (deleteGroups db [emptied]).groups id = true := by
    intro id leaf
    rw [isLeaf_iff] at leaf ⊢
    intro child member
    exact leaf child ((groups child).mp member).1
  -- only the parent can have become a leaf
  have others : ∀ id, id ≠ above → isLeaf (deleteGroups db [emptied]).groups id = true →
      isLeaf db.groups id = true := by
    intro id other leaf
    rw [isLeaf_iff] at leaf ⊢
    intro child member below
    by_cases deleted : child.id = emptied
    · obtain rfl := db.groups.eq_of_key member listed (deleted.trans same.symm)
      exact other (parent id below)
    · exact leaf child ((groups child).mpr ⟨member, deleted⟩) below
  have innerAbove : ∀ h ∈ db.groups, h.id = above → h.id ≠ emptied →
      isLeaf db.groups h.id = false := by
    intro h member is notSame
    cases below : g.parentId with
    | none => exact absurd (is.trans (root below)) notSame
    | some id =>
      rw [Bool.eq_false_iff]
      intro leaf
      rw [is, ← parent id below] at leaf
      exact isLeaf_iff.mp leaf g listed below
  constructor
  case positive =>
    intro h member
    exact state.positive h ((groups h).mp member).1
  case owner =>
    intro h member
    exact state.owner h ((groups h).mp member).1
  case path =>
    intro h member
    exact state.path h ((groups h).mp member).1
  case parent =>
    intro h member id below
    obtain ⟨before, -⟩ := (groups h).mp member
    obtain ⟨up, there, upId, rest⟩ := state.parent h before id below
    refine ⟨up, (groups up).mpr ⟨there, ?_⟩, upId, rest⟩
    rintro isEmptied
    rw [← upId, isEmptied] at below
    exact childless' h before below
  case leaf =>
    intro h member other leaf
    obtain ⟨before, different⟩ := (groups h).mp member
    exact state.leaf h before different (others h.id other leaf)
  case inner =>
    intro h member fits
    obtain ⟨before, different⟩ := (groups h).mp member
    rcases fits with is | inner
    · exact state.inner h before (Or.inr (innerAbove h before is different))
    · refine state.inner h before (Or.inr ?_)
      rw [Bool.eq_false_iff]
      intro leaf
      rw [more h.id leaf] at inner
      cases inner
  case assigned =>
    intro a member
    obtain ⟨before, different⟩ := (assignments a).mp member
    obtain ⟨h, there, id, policyId, leaf⟩ := state.assigned a before
    refine ⟨h, (groups h).mpr ⟨there, ?_⟩, id, policyId, more h.id leaf⟩
    rw [id]
    exact different
  case unassigned =>
    intro a member is
    obtain ⟨before, different⟩ := (assignments a).mp member
    obtain ⟨h, there, id, -, leaf⟩ := state.assigned a before
    have notEmptied : h.id ≠ emptied := by
      rw [id]
      exact different
    rw [innerAbove h there (id.trans is) notEmptied] at leaf
    cases leaf

end

def movedGroup (groupId policyId : Int) (path : String) (sort now : Int) (g : GroupRow) :
    GroupRow :=
  if (g.id = groupId && g.policyId = policyId) = true then
    { g with parentId := none, path, sort, updatedAt := now }
  else g

theorem Emptied.start {db db' : RuleBase} (tree : Tree db) {target : GroupRow} {parent : Int}
    {path : String} {sort now : Int} (listed : target ∈ db.groups)
    (leaf : isLeaf db.groups target.id = true) (below : target.parentId = some parent)
    (shown : Shown path) (policies : db'.policies = db.policies)
    (assignments : db'.assignments = db.assignments)
    (groups : ∀ g, g ∈ db'.groups ↔
      ∃ old ∈ db.groups, movedGroup target.id target.policyId path sort now old = g) :
    Emptied db' parent := by
  have moved : movedGroup target.id target.policyId path sort now target =
      { target with parentId := none, path, sort, updatedAt := now } := if_pos (by simp)
  have stays : ∀ g ∈ db.groups, g.id ≠ target.id →
      movedGroup target.id target.policyId path sort now g = g := by
    intro g _ other
    exact if_neg (by simp [other])
  have image : ∀ g ∈ db'.groups, (g = movedGroup target.id target.policyId path sort now target) ∨
      (g ∈ db.groups ∧ g.id ≠ target.id) := by
    intro g member
    obtain ⟨old, before, rfl⟩ := (groups g).mp member
    by_cases same : old.id = target.id
    · rw [db.groups.eq_of_key before listed same]
      exact Or.inl rfl
    · rw [stays old before same]
      exact Or.inr ⟨before, same⟩
  have kept : ∀ g ∈ db.groups, g.id ≠ target.id → g ∈ db'.groups := fun g member other =>
    (groups g).mpr ⟨g, member, stays g member other⟩
  have movedKept : movedGroup target.id target.policyId path sort now target ∈ db'.groups :=
    (groups _).mpr ⟨target, listed, rfl⟩
  have more : ∀ id, isLeaf db.groups id = true → isLeaf db'.groups id = true := by
    intro id leaf
    rw [isLeaf_iff] at leaf ⊢
    intro child member
    rcases image child member with rfl | ⟨before, -⟩
    · rw [moved]
      exact nofun
    · exact leaf child before
  have others : ∀ id, id ≠ parent → isLeaf db'.groups id = true → isLeaf db.groups id = true := by
    intro id other leaf'
    rw [isLeaf_iff] at leaf' ⊢
    intro child member up
    by_cases same : child.id = target.id
    · obtain rfl := db.groups.eq_of_key member listed same
      rw [below] at up
      exact other (Option.some.inj up).symm
    · exact leaf' child (kept child member same) up
  have innerParent : isLeaf db.groups parent = false := by
    rw [Bool.eq_false_iff]
    intro isLeaf
    exact isLeaf_iff.mp isLeaf target listed below
  constructor
  case positive =>
    intro g member
    rcases image g member with rfl | ⟨before, -⟩
    · rw [moved]
      exact tree.positive target listed
    · exact tree.positive g before
  case owner =>
    intro g member
    rw [policies]
    rcases image g member with rfl | ⟨before, -⟩
    · rw [moved]
      exact tree.owner target listed
    · exact tree.owner g before
  case path =>
    intro g member
    rcases image g member with rfl | ⟨before, -⟩
    · rw [moved]
      exact shown
    · exact tree.path g before
  case parent =>
    intro g member id up
    rcases image g member with rfl | ⟨before, -⟩
    · rw [moved] at up
      cases up
    · obtain ⟨h, above, hid, rest⟩ := tree.parent g before id up
      refine ⟨h, kept h above ?_, hid, rest⟩
      intro isTarget
      rw [← hid, isTarget] at up
      exact isLeaf_iff.mp leaf g before up
  case leaf =>
    intro g member other isLeaf'
    rcases image g member with rfl | ⟨before, -⟩
    · rw [moved]
      exact tree.leaf target listed leaf
    · exact tree.leaf g before (others g.id other isLeaf')
  case inner =>
    intro g member fits
    rcases image g member with rfl | ⟨before, -⟩
    · have notParent : target.id ≠ parent := by
        intro same
        rw [same, innerParent] at leaf
        cases leaf
      rw [moved] at fits
      rcases fits with same | inner
      · exact absurd same notParent
      · rw [more target.id leaf] at inner
        cases inner
    · refine tree.inner g before ?_
      rcases fits with same | inner
      · rw [same]
        exact innerParent
      · rw [Bool.eq_false_iff]
        intro leaf'
        rw [more g.id leaf'] at inner
        cases inner
  case assigned =>
    intro a member
    rw [assignments] at member
    obtain ⟨g, there, id, policyId, isLeaf'⟩ := tree.assigned a member
    by_cases same : g.id = target.id
    · obtain rfl := db.groups.eq_of_key there listed same
      refine ⟨_, movedKept, ?_⟩
      rw [moved]
      exact ⟨id, policyId, more g.id isLeaf'⟩
    · exact ⟨g, kept g there same, id, policyId, more g.id isLeaf'⟩
  case unassigned =>
    intro a member is
    rw [assignments] at member
    obtain ⟨g, -, id, -, isLeaf'⟩ := tree.assigned a member
    rw [id, is, innerParent] at isLeaf'
    cases isLeaf'

def childCount (groups : List GroupRow) (policyId id : Int) : Nat :=
  (groups.filter fun g => g.policyId = policyId).countP fun g => g.parentId = some id

/-- What holds at the head of the loop: `base` and `count` were read before the move. -/
structure Climbing (base : List GroupRow) (count : Int → Nat) (policyId targetId : Int)
    (db : RuleBase) (id : Int) : Prop where
  state : Emptied db id
  known : ∀ g ∈ db.groups, g.policyId = policyId → g.id ≠ targetId → g ∈ base
  target : isLeaf db.groups targetId = true
  row : ∃ g ∈ db.groups, g.id = id ∧ g.policyId = policyId
  other : id ≠ targetId
  counts : ∀ g ∈ db.groups, g.id ≠ id → childCount db.groups.rows policyId g.id = count g.id
  last : childCount db.groups.rows policyId id + 1 = count id

/-- What the loop keeps: groups that had no children when they were counted, their
members of collections, and the other tables. -/
structure Pruned (count : Int → Nat) (db db' : RuleBase) : Prop where
  tree : Tree db'
  policies : db'.policies = db.policies
  collections : db'.collections = db.collections
  members : db'.members = db.members
  groups : ∀ g ∈ db'.groups, g ∈ db.groups
  kept : ∀ g ∈ db.groups, count g.id = 0 → g ∈ db'.groups
  assignments : ∀ a, a ∈ db'.assignments ↔ a ∈ db.assignments
  collectionMembers : ∀ m ∈ db'.collectionMembers, m ∈ db.collectionMembers
  joined : ∀ m ∈ db.collectionMembers, (∀ id, m.item = .splitGroup id → count id = 0) →
    m ∈ db'.collectionMembers

private theorem Pruned.refl {count : Int → Nat} {db : RuleBase} (tree : Tree db) :
    Pruned count db db :=
  ⟨tree, rfl, rfl, rfl, fun _ member => member, fun _ member _ => member, fun _ => Iff.rfl,
    fun _ member => member, fun _ member _ => member⟩

section

variable {base : List GroupRow} {count : Int → Nat} {policyId targetId : Int} {db db' : RuleBase}
  {id : Int}

private theorem Climbing.isLeaf_iff (climbing : Climbing base count policyId targetId db id) :
    isLeaf db.groups id = true ↔ childCount db.groups.rows policyId id = 0 := by
  rw [ClientEntry.isLeaf_iff, childCount, List.countP_eq_zero]
  constructor
  · intro leaf child member
    rw [List.mem_filter] at member
    simpa using leaf child member.1
  · intro none child member below
    obtain ⟨h, above, hid, samePolicy, -⟩ := climbing.state.parent child member id below
    obtain ⟨g, listed, gid, policy⟩ := climbing.row
    obtain rfl := db.groups.eq_of_key above listed (hid.trans gid.symm)
    have counted := none child (List.mem_filter.mpr ⟨member, by simp [← samePolicy, policy]⟩)
    simp [below] at counted

private theorem childCount_delete (groups : GroupTable) {g : GroupRow} (listed : g ∈ groups)
    (policy : g.policyId = policyId) {rest : GroupTable}
    (rows : rest.rows = groups.rows.filter fun h => h.id ≠ g.id) (id : Int) :
    childCount rest.rows policyId id + (if g.parentId = some id then 1 else 0) =
      childCount groups.rows policyId id := by
  have counted := groups.countP_other listed fun h =>
    h.policyId = policyId && h.parentId = some id
  simp only [policy, decide_true, Bool.true_and, decide_eq_true_eq] at counted
  rw [childCount, childCount, rows, List.countP_filter, List.countP_filter, List.countP_filter]
  rw [List.countP_congr (q := fun h => (decide (h.policyId = policyId) &&
    decide (h.parentId = some id)) && decide (h.id ≠ g.id)), counted]
  · apply List.countP_congr
    intro h _
    simp [and_comm]
  · intro h _
    simp only [Bool.and_eq_true, decide_eq_true_eq]
    tauto

private theorem Climbing.delete (climbing : Climbing base count policyId targetId db id)
    (childless : isLeaf db.groups id = true) {g : GroupRow} (listed : g ∈ db.groups)
    (same : g.id = id) (policy : g.policyId = policyId) {above : Int}
    (below : g.parentId = some above) :
    Climbing base count policyId targetId (deleteGroups db [id]) above := by
  have closed : ∀ h ∈ db.groups, ∀ parent ∈ [id], h.parentId = some parent → h.id ∈ [id] := by
    intro h member parent only up
    rw [List.mem_singleton.mp only] at up
    exact absurd up (ClientEntry.isLeaf_iff.mp childless h member)
  have groups : ∀ h, h ∈ (deleteGroups db [id]).groups ↔ h ∈ db.groups ∧ h.id ≠ id := by
    intro h
    rw [mem_deleteGroups_groups closed, List.mem_singleton]
  have rows : (deleteGroups db [id]).groups.rows = db.groups.rows.filter fun h => h.id ≠ g.id := by
    rw [deleteGroups, Table.deleteWhere]
    apply List.filter_congr
    intro h _
    simp [mem_descendants closed, same]
  have counting := childCount_delete db.groups listed policy rows
  have different : above ≠ id := by
    rintro rfl
    exact ClientEntry.isLeaf_iff.mp childless g listed below
  obtain ⟨up, there, upId, upPolicy, -⟩ := climbing.state.parent g listed above below
  constructor
  case state =>
    apply climbing.state.delete listed same childless
    · intro other up
      rw [below] at up
      exact (Option.some.inj up).symm
    · intro root
      rw [below] at root
      cases root
  case known =>
    intro h member
    exact climbing.known h ((groups h).mp member).1
  case target =>
    rw [ClientEntry.isLeaf_iff]
    intro child member
    exact ClientEntry.isLeaf_iff.mp climbing.target child ((groups child).mp member).1
  case row =>
    refine ⟨up, (groups up).mpr ⟨there, ?_⟩, upId, upPolicy.trans policy⟩
    rw [upId]
    exact different
  case other =>
    rintro rfl
    exact ClientEntry.isLeaf_iff.mp climbing.target g listed below
  case counts =>
    intro h member other
    obtain ⟨before, notDeleted⟩ := (groups h).mp member
    have counted := counting h.id
    rw [if_neg (by rw [below]; simpa using fun same => other same.symm), Nat.add_zero] at counted
    rw [counted]
    exact climbing.counts h before notDeleted
  case last =>
    have counted := counting above
    rw [if_pos below] at counted
    rw [counted, ← upId]
    refine climbing.counts up there ?_
    rw [upId]
    exact different

theorem removeAncestors_pruned (unique : ∀ g ∈ base, ∀ h ∈ base, g.id = h.id → g = h)
    {fuel : Nat} (climbing : Climbing base count policyId targetId db id)
    (removed : removeAncestors base count policyId fuel db id = some db') :
    Pruned count db db' := by
  induction fuel generalizing db id with
  | zero => cases removed
  | succ fuel ih =>
    obtain ⟨g, listed, same, policy⟩ := climbing.row
    have inBase : g ∈ base := climbing.known g listed policy (same ▸ climbing.other)
    rw [removeAncestors] at removed
    cases found : base.find? fun g => g.id = id with
    | none =>
      have missing := List.find?_eq_none.mp found g inBase
      simp [same] at missing
    | some ancestor =>
      obtain rfl : ancestor = g := by
        have isId : ancestor.id = id := by simpa using List.find?_some found
        exact unique ancestor (List.mem_of_find?_eq_some found) g inBase (isId.trans same.symm)
      rw [found] at removed
      dsimp only at removed
      split at removed
      next stop =>
        obtain rfl := Option.some.inj removed
        have inner : isLeaf db.groups id = false := by
          rcases stop with nonpositive | more | ⟨a, member, -, group⟩
          · have positive := climbing.state.positive ancestor listed
            omega
          · rw [Bool.eq_false_iff]
            intro leaf
            have none := climbing.isLeaf_iff.mp leaf
            have last := climbing.last
            omega
          · exact absurd group (climbing.state.unassigned a member)
        exact Pruned.refl (climbing.state.tree fun _ _ _ => inner)
      next go =>
        have childless : isLeaf db.groups id = true := by
          rw [climbing.isLeaf_iff]
          have last := climbing.last
          omega
        have closed : ∀ h ∈ db.groups, ∀ parent ∈ [id], h.parentId = some parent → h.id ∈ [id] := by
          intro h member parent only up
          rw [List.mem_singleton.mp only] at up
          exact absurd up (ClientEntry.isLeaf_iff.mp childless h member)
        have groups := mem_deleteGroups_groups closed
        have assignments := mem_deleteGroups_assignments closed
        have collected := mem_deleteGroups_collectionMembers closed
        simp only [List.mem_singleton] at groups assignments
        have counted : count id ≠ 0 := by
          have last := climbing.last
          omega
        -- the deleted group had a child when it was counted
        have rest : ∀ db'', Pruned count (deleteGroups db [id]) db'' → Pruned count db db'' := by
          intro db'' pruned
          refine ⟨pruned.tree, pruned.policies, pruned.collections, pruned.members, ?_, ?_, ?_, ?_,
            ?_⟩
          · intro h member
            exact ((groups h).mp (pruned.groups h member)).1
          · intro h member childless
            refine pruned.kept h ((groups h).mpr ⟨member, ?_⟩) childless
            rintro isId
            rw [isId] at childless
            exact counted childless
          · intro a
            rw [pruned.assignments, assignments]
            exact and_iff_left_of_imp (climbing.state.unassigned a)
          · intro m member
            exact ((collected m).mp (pruned.collectionMembers m member)).1
          · intro m member leaf
            refine pruned.joined m ((collected m).mpr ⟨member, ?_⟩) leaf
            intro other only item
            rw [List.mem_singleton.mp only] at item
            exact counted (leaf id item)
        split at removed
        next root =>
          obtain rfl := Option.some.inj removed
          have state : Emptied (deleteGroups db [id]) id :=
            climbing.state.delete listed same childless
              (fun other up => by rw [root] at up; cases up) fun _ => rfl
          have gone : ∀ h ∈ (deleteGroups db [id]).groups, h.id = id →
              isLeaf (deleteGroups db [id]).groups id = false := fun h member isId =>
            absurd isId ((groups h).mp member).2
          exact rest _ (Pruned.refl (state.tree gone))
        next above parent =>
          exact rest _ (ih (climbing.delete childless listed same policy parent) removed)

theorem removeAncestors_ends (unique : ∀ g ∈ base, ∀ h ∈ base, g.id = h.id → g = h)
    {fuel : Nat} (climbing : Climbing base count policyId targetId db id)
    (enough : ∀ g ∈ db.groups, g.id = id → g.path.length < fuel) :
    (removeAncestors base count policyId fuel db id).isSome = true := by
  induction fuel generalizing db id with
  | zero =>
    obtain ⟨g, listed, same, -⟩ := climbing.row
    exact absurd (enough g listed same) (Nat.not_lt_zero _)
  | succ fuel ih =>
    obtain ⟨g, listed, same, policy⟩ := climbing.row
    have inBase : g ∈ base := climbing.known g listed policy (same ▸ climbing.other)
    rw [removeAncestors]
    cases found : base.find? fun g => g.id = id with
    | none => rfl
    | some ancestor =>
      obtain rfl : ancestor = g := by
        have isId : ancestor.id = id := by simpa using List.find?_some found
        exact unique ancestor (List.mem_of_find?_eq_some found) g inBase (isId.trans same.symm)
      dsimp only
      split
      · rfl
      next go =>
        have childless : isLeaf db.groups id = true := by
          rw [climbing.isLeaf_iff]
          have last := climbing.last
          omega
        split
        · rfl
        next above parent =>
          have next := climbing.delete childless listed same policy parent
          apply ih next
          intro h member isAbove
          obtain ⟨up, there, upId, -, shorter⟩ := climbing.state.parent ancestor listed above parent
          have closed : ∀ h ∈ db.groups, ∀ parent ∈ [id], h.parentId = some parent →
              h.id ∈ [id] := by
            intro h member parent only up
            rw [List.mem_singleton.mp only] at up
            exact absurd up (ClientEntry.isLeaf_iff.mp childless h member)
          have before := ((mem_deleteGroups_groups closed h).mp member).1
          obtain rfl := db.groups.eq_of_key before there (isAbove.trans upId.symm)
          have bound := enough ancestor listed same
          omega

end

end ForestPanel.ClientEntry
