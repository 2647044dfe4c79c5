import ForestPanel.ClientEntry.Reorder

/-!
# The tree of a split rule

The invariant `Tree`: groups hang below groups of the same split rule under longer paths,
exactly the leaves have a host and a place in the order, and users are assigned to leaves.
Each operation is one of a few edits of the tree: rows change without moving, roots are
added, a leaf gets two children, a leaf moves to the root, or a whole rule goes.
-/
namespace ForestPanel.ClientEntry

open Outcome Relational

structure Tree (db : RuleBase) : Prop where
  positive : ∀ g ∈ db.groups, 0 < g.id
  owner : ∀ g ∈ db.groups, ∃ p ∈ db.policies, p.id = g.policyId ∧ p.mode = .split
  path : ∀ g ∈ db.groups, Shown g.path
  parent : ∀ g ∈ db.groups, ∀ parent, g.parentId = some parent →
    ∃ h ∈ db.groups, h.id = parent ∧ h.policyId = g.policyId ∧ h.path.length < g.path.length
  leaf : ∀ g ∈ db.groups, isLeaf db.groups g.id = true →
    Shown g.entryHost ∧ g.globalSort.isSome = true
  inner : ∀ g ∈ db.groups, isLeaf db.groups g.id = false →
    g.entryHost = "" ∧ g.globalSort = none
  assigned : ∀ a ∈ db.assignments, ∃ g ∈ db.groups, g.id = a.groupId ∧
    g.policyId = a.policyId ∧ isLeaf db.groups g.id = true

theorem tree_empty : Tree emptyRuleBase := by
  constructor <;> (intro row member; cases member)

def KeepsSplit (db db' : RuleBase) : Prop :=
  ∀ p ∈ db.policies, p.mode = .split → ∃ p' ∈ db'.policies, p'.id = p.id ∧ p'.mode = .split

theorem Reordered.keepsSplit {db db' : RuleBase} (reordered : Reordered db db') :
    KeepsSplit db db' := by
  intro p member split
  obtain ⟨p', listed, alike⟩ := reordered.symm.policy member
  exact ⟨p', listed, alike.id, alike.mode.trans split⟩

structure GroupRow.Stays (g g' : GroupRow) : Prop where
  id : g'.id = g.id
  policyId : g'.policyId = g.policyId
  parentId : g'.parentId = g.parentId
  path : g'.path = g.path

/-- The host and the place of a leaf, or of a group with children. -/
def Fitting (leaf : Bool) (g : GroupRow) : Prop :=
  if leaf = true then Shown g.entryHost ∧ g.globalSort.isSome = true
  else g.entryHost = "" ∧ g.globalSort = none

structure Edited (db db' : RuleBase) : Prop where
  kept : ∀ g ∈ db.groups, ∃ g' ∈ db'.groups, g.Stays g'
  image : ∀ g' ∈ db'.groups, ∃ g ∈ db.groups, g.Stays g' ∧ Fitting (isLeaf db.groups g.id) g'

theorem Tree.fitting {db : RuleBase} (tree : Tree db) {g : GroupRow} (member : g ∈ db.groups) :
    Fitting (isLeaf db.groups g.id) g := by
  unfold Fitting
  split
  next leaf => exact tree.leaf g member leaf
  next inner => exact tree.inner g member (Bool.eq_false_iff.mpr inner)

section

variable {db db' : RuleBase}

theorem Edited.isLeaf (edited : Edited db db') (id : Int) :
    isLeaf db'.groups id = isLeaf db.groups id := by
  rw [Bool.eq_iff_iff, isLeaf_iff, isLeaf_iff]
  constructor
  · intro leaf child member
    obtain ⟨child', listed, stays⟩ := edited.kept child member
    rw [← stays.parentId]
    exact leaf child' listed
  · intro leaf child' member
    obtain ⟨child, listed, stays, -⟩ := edited.image child' member
    rw [stays.parentId]
    exact leaf child listed

theorem Tree.edit (tree : Tree db) (edited : Edited db db') (owners : KeepsSplit db db')
    (assigned : ∀ a ∈ db'.assignments, a ∈ db.assignments) : Tree db' := by
  constructor
  case positive =>
    intro g' member
    obtain ⟨g, listed, stays, -⟩ := edited.image g' member
    rw [stays.id]
    exact tree.positive g listed
  case owner =>
    intro g' member
    obtain ⟨g, listed, stays, -⟩ := edited.image g' member
    obtain ⟨p, there, id, split⟩ := tree.owner g listed
    obtain ⟨p', there', id', split'⟩ := owners p there split
    rw [stays.policyId]
    exact ⟨p', there', id'.trans id, split'⟩
  case path =>
    intro g' member
    obtain ⟨g, listed, stays, -⟩ := edited.image g' member
    rw [stays.path]
    exact tree.path g listed
  case parent =>
    intro g' member parent below
    obtain ⟨g, listed, stays, -⟩ := edited.image g' member
    rw [stays.parentId] at below
    obtain ⟨h, above, id, samePolicy, shorter⟩ := tree.parent g listed parent below
    obtain ⟨h', above', stays'⟩ := edited.kept h above
    refine ⟨h', above', stays'.id.trans id, ?_, ?_⟩
    · rw [stays'.policyId, stays.policyId, samePolicy]
    · rw [stays'.path, stays.path]
      exact shorter
  case leaf =>
    intro g' member leaf
    obtain ⟨g, listed, stays, fits⟩ := edited.image g' member
    rw [edited.isLeaf, stays.id] at leaf
    rwa [leaf] at fits
  case inner =>
    intro g' member inner
    obtain ⟨g, listed, stays, fits⟩ := edited.image g' member
    rw [edited.isLeaf, stays.id] at inner
    rwa [inner] at fits
  case assigned =>
    intro a member
    obtain ⟨g, listed, id, policyId, leaf⟩ := tree.assigned a (assigned a member)
    obtain ⟨g', listed', stays⟩ := edited.kept g listed
    refine ⟨g', listed', stays.id.trans id, stays.policyId.trans policyId, ?_⟩
    rw [edited.isLeaf, stays.id]
    exact leaf

theorem edited_of_groups (tree : Tree db) (same : db'.groups = db.groups) : Edited db db' := by
  constructor
  · intro g member
    exact ⟨g, same ▸ member, rfl, rfl, rfl, rfl⟩
  · intro g member
    rw [same] at member
    exact ⟨g, member, ⟨rfl, rfl, rfl, rfl⟩, tree.fitting member⟩

theorem Tree.congr (tree : Tree db) (same : db'.groups = db.groups) (owners : KeepsSplit db db')
    (assigned : ∀ a ∈ db'.assignments, a ∈ db.assignments) : Tree db' :=
  tree.edit (edited_of_groups tree same) owners assigned

theorem Reordered.edited (reordered : Reordered db db') (tree : Tree db) : Edited db db' := by
  constructor
  · intro g member
    obtain ⟨g', listed, alike⟩ := reordered.symm.group member
    exact ⟨g', listed, alike.id, alike.policyId, alike.parentId, alike.path⟩
  · intro g' member
    obtain ⟨g, listed, alike⟩ := reordered.group member
    refine ⟨g, listed, ⟨alike.id.symm, alike.policyId.symm, alike.parentId.symm,
      alike.path.symm⟩, ?_⟩
    have fits := tree.fitting listed
    unfold Fitting at fits ⊢
    split
    next leaf =>
      rw [if_pos leaf, alike.entryHost, alike.placed] at fits
      exact fits
    next inner =>
      rw [if_neg inner, alike.entryHost, ← Option.not_isSome_iff_eq_none, alike.placed,
        Option.not_isSome_iff_eq_none] at fits
      exact fits

theorem Tree.reorder (tree : Tree db) (reordered : Reordered db db') : Tree db' := by
  apply tree.edit (reordered.edited tree) reordered.keepsSplit
  intro a member
  rwa [reordered.assignments] at member

theorem Tree.placed (tree : Tree db) :
    ∀ g ∈ db.groups, ClientEntry.isLeaf db.groups g.id = true → g.globalSort.isSome = true :=
  fun g member leaf => (tree.leaf g member leaf).2

end

structure NewRoot (db : RuleBase) (g : GroupRow) : Prop where
  positive : 0 < g.id
  owner : ∃ p ∈ db.policies, p.id = g.policyId ∧ p.mode = .split
  parentId : g.parentId = none
  path : Shown g.path
  host : Shown g.entryHost
  placed : g.globalSort.isSome = true

private theorem unreferenced {db : RuleBase} (tree : Tree db) {id : Int}
    (fresh : ∀ h ∈ db.groups, h.id ≠ id) : ∀ h ∈ db.groups, h.parentId ≠ some id := by
  intro h member below
  obtain ⟨above, listed, same, -⟩ := tree.parent h member id below
  exact fresh above listed same

theorem Tree.grow {db db' : RuleBase} (tree : Tree db) {new : List GroupRow}
    (groups : ∀ g, g ∈ db'.groups ↔ g ∈ db.groups ∨ g ∈ new)
    (roots : ∀ g ∈ new, NewRoot db' g)
    (fresh : ∀ g ∈ new, ∀ h ∈ db.groups, h.id ≠ g.id)
    (owners : KeepsSplit db db')
    (assigned : ∀ a ∈ db'.assignments, a ∈ db.assignments ∨
      ∃ g ∈ new, g.id = a.groupId ∧ g.policyId = a.policyId) : Tree db' := by
  have old : ∀ id, isLeaf db'.groups id = isLeaf db.groups id := by
    intro id
    rw [Bool.eq_iff_iff, isLeaf_iff, isLeaf_iff]
    constructor
    · intro leaf child member
      exact leaf child ((groups child).mpr (Or.inl member))
    · intro leaf child member
      rcases (groups child).mp member with before | added
      · exact leaf child before
      · rw [(roots child added).parentId]
        exact nofun
  have newLeaf : ∀ g ∈ new, isLeaf db.groups g.id = true := fun g added =>
    isLeaf_iff.mpr (unreferenced tree (fresh g added))
  constructor
  case positive =>
    intro g member
    rcases (groups g).mp member with before | added
    · exact tree.positive g before
    · exact (roots g added).positive
  case owner =>
    intro g member
    rcases (groups g).mp member with before | added
    · obtain ⟨p, there, id, split⟩ := tree.owner g before
      obtain ⟨p', there', id', split'⟩ := owners p there split
      exact ⟨p', there', id'.trans id, split'⟩
    · exact (roots g added).owner
  case path =>
    intro g member
    rcases (groups g).mp member with before | added
    · exact tree.path g before
    · exact (roots g added).path
  case parent =>
    intro g member parent below
    rcases (groups g).mp member with before | added
    · obtain ⟨h, above, rest⟩ := tree.parent g before parent below
      exact ⟨h, (groups h).mpr (Or.inl above), rest⟩
    · rw [(roots g added).parentId] at below
      cases below
  case leaf =>
    intro g member leaf
    rcases (groups g).mp member with before | added
    · rw [old] at leaf
      exact tree.leaf g before leaf
    · exact ⟨(roots g added).host, (roots g added).placed⟩
  case inner =>
    intro g member inner
    rw [old] at inner
    rcases (groups g).mp member with before | added
    · exact tree.inner g before inner
    · rw [newLeaf g added] at inner
      cases inner
  case assigned =>
    intro a member
    rcases assigned a member with before | ⟨g, added, id, policyId⟩
    · obtain ⟨g, listed, id, policyId, leaf⟩ := tree.assigned a before
      rw [← old] at leaf
      exact ⟨g, (groups g).mpr (Or.inl listed), id, policyId, leaf⟩
    · have leaf := newLeaf g added
      rw [← old] at leaf
      exact ⟨g, (groups g).mpr (Or.inr added), id, policyId, leaf⟩

structure NewChild (parent g : GroupRow) : Prop where
  positive : 0 < g.id
  policyId : g.policyId = parent.policyId
  parentId : g.parentId = some parent.id
  path : Shown g.path
  longer : parent.path.length < g.path.length
  host : Shown g.entryHost
  placed : g.globalSort.isSome = true

def retired (leaf : GroupRow) (now : Int) (g : GroupRow) : GroupRow :=
  if g.id = leaf.id then { g with entryHost := "", globalSort := none, updatedAt := now } else g

private theorem retired_stays (leaf : GroupRow) (now : Int) (g : GroupRow) :
    g.Stays (retired leaf now g) := by
  unfold retired
  split
  · exact ⟨rfl, rfl, rfl, rfl⟩
  · exact ⟨rfl, rfl, rfl, rfl⟩

theorem Tree.divide {db db' : RuleBase} (tree : Tree db) {leaf : GroupRow} {now : Int}
    {new : List GroupRow} (listed : leaf ∈ db.groups) (nonempty : new ≠ [])
    (groups : ∀ g, g ∈ db'.groups ↔ (∃ old ∈ db.groups, retired leaf now old = g) ∨ g ∈ new)
    (children : ∀ g ∈ new, NewChild leaf g)
    (fresh : ∀ g ∈ new, ∀ h ∈ db.groups, h.id ≠ g.id)
    (owners : KeepsSplit db db')
    (assigned : ∀ a ∈ db'.assignments, (a ∈ db.assignments ∧ a.groupId ≠ leaf.id) ∨
      ∃ g ∈ new, g.id = a.groupId ∧ g.policyId = a.policyId) : Tree db' := by
  have kept : ∀ g ∈ db.groups, retired leaf now g ∈ db'.groups := fun g member =>
    (groups _).mpr (Or.inl ⟨g, member, rfl⟩)
  -- only the divided leaf stops being one
  have others : ∀ id, id ≠ leaf.id → isLeaf db'.groups id = isLeaf db.groups id := by
    intro id other
    rw [Bool.eq_iff_iff, isLeaf_iff, isLeaf_iff]
    constructor
    · intro isLeaf child member
      rw [← (retired_stays leaf now child).parentId]
      exact isLeaf _ (kept child member)
    · intro isLeaf child member
      rcases (groups child).mp member with ⟨old, before, rfl⟩ | added
      · rw [(retired_stays leaf now old).parentId]
        exact isLeaf old before
      · rw [(children child added).parentId]
        exact fun same => other (Option.some.inj same).symm
  have divided : isLeaf db'.groups leaf.id = false := by
    obtain ⟨child, added⟩ := List.exists_mem_of_ne_nil new nonempty
    rw [Bool.eq_false_iff]
    intro isLeaf
    exact isLeaf_iff.mp isLeaf child ((groups child).mpr (Or.inr added))
      (children child added).parentId
  have newLeaf : ∀ g ∈ new, isLeaf db'.groups g.id = true := by
    intro g added
    rw [others g.id fun same => fresh g added leaf listed same.symm]
    exact isLeaf_iff.mpr (unreferenced tree (fresh g added))
  constructor
  case positive =>
    intro g member
    rcases (groups g).mp member with ⟨old, before, rfl⟩ | added
    · rw [(retired_stays leaf now old).id]
      exact tree.positive old before
    · exact (children g added).positive
  case owner =>
    intro g member
    have inherited : ∀ old ∈ db.groups, ∃ p ∈ db'.policies, p.id = old.policyId ∧
        p.mode = .split := by
      intro old before
      obtain ⟨p, there, id, split⟩ := tree.owner old before
      obtain ⟨p', there', id', split'⟩ := owners p there split
      exact ⟨p', there', id'.trans id, split'⟩
    rcases (groups g).mp member with ⟨old, before, rfl⟩ | added
    · rw [(retired_stays leaf now old).policyId]
      exact inherited old before
    · rw [(children g added).policyId]
      exact inherited leaf listed
  case path =>
    intro g member
    rcases (groups g).mp member with ⟨old, before, rfl⟩ | added
    · rw [(retired_stays leaf now old).path]
      exact tree.path old before
    · exact (children g added).path
  case parent =>
    intro g member parent below
    rcases (groups g).mp member with ⟨old, before, rfl⟩ | added
    · have stays := retired_stays leaf now old
      rw [stays.parentId] at below
      obtain ⟨h, above, id, samePolicy, shorter⟩ := tree.parent old before parent below
      have above' := retired_stays leaf now h
      refine ⟨_, kept h above, above'.id.trans id, ?_, ?_⟩
      · rw [above'.policyId, stays.policyId, samePolicy]
      · rw [above'.path, stays.path]
        exact shorter
    · have child := children g added
      have stays := retired_stays leaf now leaf
      rw [child.parentId, Option.some.injEq] at below
      refine ⟨_, kept leaf listed, stays.id.trans below, ?_, ?_⟩
      · rw [stays.policyId, child.policyId]
      · rw [stays.path]
        exact child.longer
  case leaf =>
    intro g member isLeaf
    rcases (groups g).mp member with ⟨old, before, rfl⟩ | added
    · rw [(retired_stays leaf now old).id] at isLeaf
      by_cases same : old.id = leaf.id
      · rw [same, divided] at isLeaf
        cases isLeaf
      · rw [others old.id same] at isLeaf
        rw [retired, if_neg same]
        exact tree.leaf old before isLeaf
    · exact ⟨(children g added).host, (children g added).placed⟩
  case inner =>
    intro g member inner
    rcases (groups g).mp member with ⟨old, before, rfl⟩ | added
    · rw [(retired_stays leaf now old).id] at inner
      by_cases same : old.id = leaf.id
      · rw [retired, if_pos same]
        exact ⟨rfl, rfl⟩
      · rw [others old.id same] at inner
        rw [retired, if_neg same]
        exact tree.inner old before inner
    · rw [newLeaf g added] at inner
      cases inner
  case assigned =>
    intro a member
    rcases assigned a member with ⟨before, other⟩ | ⟨g, added, id, policyId⟩
    · obtain ⟨g, there, id, policyId, isLeaf⟩ := tree.assigned a before
      have different : g.id ≠ leaf.id := by
        rw [id]
        exact other
      refine ⟨g, ?_, id, policyId, (others g.id different).trans isLeaf⟩
      have stays := kept g there
      rwa [retired, if_neg different] at stays
    · exact ⟨g, (groups g).mpr (Or.inr added), id, policyId, newLeaf g added⟩

end ForestPanel.ClientEntry
