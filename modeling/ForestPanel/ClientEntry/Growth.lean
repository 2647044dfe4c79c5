import ForestPanel.ClientEntry.Cases

/-!
# Every operation keeps the tree

The operations that write groups are edits, new roots, a division or a move; the others
leave the groups alone and keep split rules split.
-/
namespace ForestPanel.ClientEntry

open Outcome Relational

section

variable {db db' : RuleBase}

theorem KeepsSplit.refl (db : RuleBase) : KeepsSplit db db := fun p member split =>
  ⟨p, member, rfl, split⟩

theorem keepsSplit_of_update {p : PolicyRow → Bool} {f : PolicyRow → PolicyRow}
    (rows : db'.policies.rows = db.policies.rows.map fun q => if p q then f q else q)
    (same : ∀ q, (f q).id = q.id ∧ (q.mode = .split → (f q).mode = .split)) :
    KeepsSplit db db' := by
  intro q member split
  refine ⟨if p q then f q else q, (Table.mem_of_rows_map rows _).mpr ⟨q, member, rfl⟩, ?_⟩
  split
  · exact ⟨(same q).1, (same q).2 split⟩
  · exact ⟨rfl, split⟩

theorem Shown.append {path suffix : String} (shown : Shown path) (nonempty : suffix.toList ≠ [])
    (visible : ∀ c ∈ suffix.toList, isSpace c = false) : Shown (path ++ suffix) := by
  have start : path.toList ≠ [] := fun empty => shown.1 (String.toList_eq_nil_iff.mp empty)
  constructor
  · intro empty
    have chars := congrArg String.toList empty
    rw [String.toList_append] at chars
    exact start (List.append_eq_nil_iff.mp chars).1
  · rw [trimSpace_eq_self_iff, String.toList_append]
    constructor
    · rw [List.head?_append_of_ne_nil _ start]
      exact (trimSpace_eq_self_iff.mp shown.2).1
    · intro c last
      rw [List.getLast?_append_of_ne_nil _ nonempty] at last
      exact visible c (List.mem_of_getLast? last)

theorem parentPath_of_shown {leaf : GroupRow} (shown : Shown leaf.path) :
    parentPath leaf = leaf.path := by
  unfold parentPath
  dsimp only
  rw [shown.2, if_neg shown.1]

theorem length_append_lt {path suffix : String} (nonempty : suffix.toList ≠ []) :
    path.length < (path ++ suffix).length := by
  have positive : 0 < suffix.length := by
    rw [← String.length_toList]
    exact List.length_pos_iff.mpr nonempty
  rw [String.length_append]
  omega

variable (lib : EntryLibrary)

theorem saveClientEntryUserPolicy_tree (tree : Tree db) {req : PolicySaveRequest} {newId now : Int}
    (returned : saveClientEntryUserPolicy lib db req newId now = .ok db') : Tree db' := by
  obtain ⟨prepared, conditions, members, -, -, -, inserted | rewritten⟩ :=
    saveClientEntryUserPolicy_cases lib returned
  · obtain ⟨policies, -, -, rfl, rows⟩ := inserted
    refine tree.congr rfl ?_ fun _ member => member
    intro p member split
    exact ⟨p, (rows p).mpr (Or.inl member), rfl, split⟩
  · obtain ⟨policyId, -, rfl⟩ := rewritten
    exact tree.congr rfl (keepsSplit_of_update rfl fun _ => ⟨rfl, fun split => split⟩) fun _ member => member

theorem setClientEntryUserPolicyEnabled_tree (tree : Tree db) {id enabled now : Int}
    (returned : setClientEntryUserPolicyEnabled db id enabled now = .ok db') : Tree db' := by
  simp only [setClientEntryUserPolicyEnabled, bind_eq_ok, ensure_eq_ok, exists_const,
    pure_eq_ok] at returned
  obtain ⟨-, -, -, rfl⟩ := returned
  exact tree.congr rfl (keepsSplit_of_update rfl fun _ => ⟨rfl, fun split => split⟩) fun _ member => member

theorem deleteClientEntryUserPolicy_cases (tree : Tree db) {id : Int}
    (returned : deleteClientEntryUserPolicy db id = .ok db') :
    (∀ p, p ∈ db'.policies ↔ p ∈ db.policies ∧ p.id ≠ id) ∧
      (∀ g, g ∈ db'.groups ↔ g ∈ db.groups ∧ g.policyId ≠ id) ∧
      (∀ a, a ∈ db'.assignments ↔ a ∈ db.assignments ∧ a.policyId ≠ id) ∧
      (∀ m, m ∈ db'.collectionMembers ↔
        m ∈ db.collectionMembers ∧ itemOfPolicy db id m.item = false) ∧
      db'.collections =
        (detachClientEntryCollectionMembers db (itemOfPolicy db id)).collections := by
  simp only [deleteClientEntryUserPolicy, bind_eq_ok, ensure_eq_ok, exists_const,
    pure_eq_ok] at returned
  obtain ⟨-, -, rfl⟩ := returned
  set left : RuleBase := { detachClientEntryCollectionMembers db (itemOfPolicy db id) with
    members := (detachClientEntryCollectionMembers db (itemOfPolicy db id)).members.deleteWhere
      fun m => m.policyId = id } with leftEq
  set ids := (db.groups.rows.filter fun g => g.policyId = id).map GroupRow.id with idsEq
  have inIds : ∀ g ∈ db.groups, g.id ∈ ids ↔ g.policyId = id := by
    intro g member
    rw [idsEq, List.mem_map]
    constructor
    · rintro ⟨h, listed, same⟩
      rw [List.mem_filter, decide_eq_true_eq] at listed
      rw [← db.groups.eq_of_key listed.1 member same]
      exact listed.2
    · intro policy
      exact ⟨g, List.mem_filter.mpr ⟨member, by simpa using policy⟩, rfl⟩
  have closed : ∀ g ∈ left.groups, ∀ parent ∈ ids, g.parentId = some parent → g.id ∈ ids := by
    intro g member parent listed below
    obtain ⟨h, above, same, policy, -⟩ := tree.parent g member parent below
    rw [← same] at listed
    exact (inIds g member).mpr (policy ▸ (inIds h above).mp listed)
  have groups := mem_deleteGroups_groups closed
  have assignments := mem_deleteGroups_assignments closed
  have collected := mem_deleteGroups_collectionMembers closed
  refine ⟨?_, ?_, ?_, ?_, rfl⟩
  · intro p
    rw [Table.mem_deleteWhere, decide_eq_false_iff_not]
    rfl
  · intro g
    refine (groups g).trans ?_
    constructor
    · rintro ⟨member, outside⟩
      exact ⟨member, fun policy => outside ((inIds g member).mpr policy)⟩
    · rintro ⟨member, other⟩
      exact ⟨member, fun inside => other ((inIds g member).mp inside)⟩
  · intro a
    rw [Table.mem_deleteWhere, decide_eq_false_iff_not]
    refine (and_congr_left' (assignments a)).trans ?_
    constructor
    · rintro ⟨⟨member, -⟩, other⟩
      exact ⟨member, other⟩
    · rintro ⟨member, other⟩
      refine ⟨⟨member, ?_⟩, other⟩
      obtain ⟨g, listed, same, policy, -⟩ := tree.assigned a member
      rw [← same, inIds g listed, policy]
      exact other
  · intro m
    rw [Table.mem_deleteWhere, decide_eq_false_iff_not]
    refine (and_congr_left' (collected m)).trans ?_
    constructor
    · rintro ⟨⟨member, -⟩, -⟩
      exact (Table.mem_deleteWhere _ _ _).mp member
    · rintro ⟨member, outside⟩
      refine ⟨⟨(Table.mem_deleteWhere _ _ _).mpr ⟨member, outside⟩, ?_⟩, ?_⟩
      · intro groupId listed item
        rw [idsEq, List.mem_map] at listed
        obtain ⟨g, there, rfl⟩ := listed
        rw [List.mem_filter, decide_eq_true_eq] at there
        rw [item, itemOfPolicy] at outside
        simp only [reduceCtorEq, decide_false, Bool.false_or, decide_eq_false_iff_not] at outside
        exact outside ⟨g, there.1, there.2, rfl⟩
      · intro item
        rw [item, itemOfPolicy] at outside
        simp at outside

theorem deleteClientEntryUserPolicy_tree (tree : Tree db) {id : Int}
    (returned : deleteClientEntryUserPolicy db id = .ok db') : Tree db' := by
  obtain ⟨policies, groups, assignments, -, -⟩ := deleteClientEntryUserPolicy_cases tree returned
  have leaf : ∀ g ∈ db.groups, g.policyId ≠ id → isLeaf db'.groups g.id = isLeaf db.groups g.id := by
    intro g member other
    rw [Bool.eq_iff_iff, isLeaf_iff, isLeaf_iff]
    constructor
    · intro leaf child listed below
      obtain ⟨h, above, same, policy, -⟩ := tree.parent child listed g.id below
      rw [db.groups.eq_of_key above member same] at policy
      exact leaf child ((groups child).mpr ⟨listed, policy ▸ other⟩) below
    · intro leaf child listed
      exact leaf child ((groups child).mp listed).1
  constructor
  case positive =>
    intro g member
    exact tree.positive g ((groups g).mp member).1
  case owner =>
    intro g member
    obtain ⟨before, other⟩ := (groups g).mp member
    obtain ⟨p, there, same, split⟩ := tree.owner g before
    exact ⟨p, (policies p).mpr ⟨there, same ▸ other⟩, same, split⟩
  case path =>
    intro g member
    exact tree.path g ((groups g).mp member).1
  case parent =>
    intro g member parent below
    obtain ⟨before, other⟩ := (groups g).mp member
    obtain ⟨h, above, same, policy, shorter⟩ := tree.parent g before parent below
    exact ⟨h, (groups h).mpr ⟨above, policy ▸ other⟩, same, policy, shorter⟩
  case leaf =>
    intro g member isLeaf
    obtain ⟨before, other⟩ := (groups g).mp member
    rw [leaf g before other] at isLeaf
    exact tree.leaf g before isLeaf
  case inner =>
    intro g member inner
    obtain ⟨before, other⟩ := (groups g).mp member
    rw [leaf g before other] at inner
    exact tree.inner g before inner
  case assigned =>
    intro a member
    obtain ⟨before, other⟩ := (assignments a).mp member
    obtain ⟨g, there, same, policy, isLeaf⟩ := tree.assigned a before
    have kept : g.policyId ≠ id := policy ▸ other
    exact ⟨g, (groups g).mpr ⟨there, kept⟩, same, policy, (leaf g there kept).trans isLeaf⟩

private theorem shownA : Shown "A" := shown_of_visible (by decide) (by decide)

private theorem shownB : Shown "B" := shown_of_visible (by decide) (by decide)

theorem createClientEntryUserPolicySplit_tree (tree : Tree db) {req : SplitCreateRequest}
    {newId : Int} {new : NewGroups} {now : Int}
    (returned : createClientEntryUserPolicySplit lib db req newId new now = .ok db') : Tree db' := by
  obtain ⟨prepared, policies, groups, assignments, members, rows, normalized, -, -, listed, added,
    appended, theirs, -, rfl⟩ := createClientEntryUserPolicySplit_cases lib returned
  obtain ⟨hostA, hostB, -⟩ := preparedSplit_shown lib normalized
  have owner := (listed (newSplitPolicy prepared newId (nextClientEntryRuleSort db) now)).mpr
    (Or.inr rfl)
  apply tree.grow added.rows
  · intro g new
    have positive := added.positive g new
    rcases List.mem_cons.mp new with rfl | second
    · exact ⟨positive, ⟨_, owner, rfl, rfl⟩, rfl, shownA, hostA, rfl⟩
    · split at second
      · cases second
      next two =>
        obtain rfl := List.mem_singleton.mp second
        exact ⟨positive, ⟨_, owner, rfl, rfl⟩, rfl, shownB, hostB (Bool.eq_false_iff.mpr two), rfl⟩
  · exact added.fresh
  · intro p member split
    exact ⟨p, (listed p).mpr (Or.inl member), rfl, split⟩
  · intro a member
    rw [Table.mem_def, appended, List.mem_append] at member
    rcases member with before | fresh
    · exact Or.inl before
    · obtain ⟨policy, g, new, id⟩ := theirs a fresh
      refine Or.inr ⟨g, new, id, ?_⟩
      rw [policy]
      rcases List.mem_cons.mp new with rfl | second
      · rfl
      · split at second
        · cases second
        · rw [List.mem_singleton.mp second]
          rfl

theorem convertClientEntryUserPolicyToSplit_tree (tree : Tree db) {req : SplitConvertRequest}
    {pool : Except String (List BackupIP)} {new : NewGroups} {now : Int}
    (returned : convertClientEntryUserPolicyToSplit lib db req pool new now = .ok db') :
    Tree db' := by
  obtain ⟨policy, hostA, hostB, shifted, groups, assignments, users, member, standard, -, shown,
    shown', shift, added, rows, rfl⟩ := convertClientEntryUserPolicyToSplit_cases lib returned
  have reordered := shiftVisibleSortsAfter_reordered shift
  have owner : ∃ p ∈ shifted.policies.updateWhere
      (fun p => p.id = policy.id && p.mode = .standard) (converted now) fun _ => ⟨rfl, rfl⟩,
      p.id = policy.id ∧ p.mode = .split := by
    obtain ⟨p, there, alike⟩ := reordered.symm.policy member
    have chosen : (p.id = policy.id && p.mode = .standard) = true := by
      simp [alike.id, alike.mode, standard]
    refine ⟨converted now p, ?_, alike.id, rfl⟩
    rw [Table.mem_updateWhere]
    exact ⟨p, there, if_pos chosen⟩
  apply (tree.reorder reordered).grow added.rows
  · intro g new
    have positive := added.positive g new
    rcases List.mem_pair.mp new with rfl | rfl
    · exact ⟨positive, owner, rfl, shownA, shown, rfl⟩
    · exact ⟨positive, owner, rfl, shownB, shown', rfl⟩
  · exact added.fresh
  · exact keepsSplit_of_update rfl fun _ => ⟨rfl, fun _ => rfl⟩
  · intro a there
    have appended : a ∈ shifted.assignments.rows ++ halves policy.id users new := rows ▸ there
    rcases List.mem_append.mp appended with before | fresh
    · exact Or.inl before
    · obtain ⟨samePolicy, group⟩ := mem_halves fresh
      refine Or.inr ?_
      rcases group with inA | inB
      · exact ⟨_, List.mem_cons_self, inA.symm, samePolicy.symm⟩
      · exact ⟨_, List.mem_cons_of_mem _ List.mem_cons_self, inB.symm, samePolicy.symm⟩

def handed (users : List Int) (policyId groupId : Int) (new : NewGroups) (a : AssignmentRow) :
    AssignmentRow :=
  if (a.policyId = policyId && a.groupId = groupId) = true then
    { a with
      groupId :=
        if Ranking.rank users a.userId ≤ (users.length + 1) / 2 then new.groupA else new.groupB }
  else a

theorem rows_reassign (db : RuleBase) (policyId groupId : Int) (new : NewGroups) :
    (reassign db policyId groupId new).assignments.rows =
      db.assignments.rows.map (handed (usersOf db policyId groupId) policyId groupId new) := rfl

theorem divideLeaf_tree (tree : Tree db) {leaf : GroupRow} {position resolve : Int}
    {children : Children} {now : Int} (division : Division db leaf position resolve children)
    (divided : divideLeaf db leaf position resolve children now = some db') : Tree db' := by
  obtain ⟨shifted, groups, shift, added, rfl⟩ := divideLeaf_cases divided
  have reordered := shiftVisibleSortsAfter_reordered shift
  obtain ⟨leaf', listed, alike⟩ := reordered.symm.group division.listed
  have path : children.path = leaf.path :=
    division.path.trans (parentPath_of_shown (tree.path leaf division.listed))
  have shownPath := tree.path leaf division.listed
  have sameId : leaf'.id = leaf.id := alike.id
  -- the children hang below the leaf as the shift left it
  have children' : ∀ g ∈ dividedGroups leaf position resolve children now, NewChild leaf' g := by
    intro g new
    have longer : ∀ suffix : String, suffix.toList ≠ [] →
        leaf'.path.length < (children.path ++ suffix).length := by
      intro suffix nonempty
      rw [alike.path, path]
      exact length_append_lt nonempty
    rcases List.mem_pair.mp new with rfl | rfl
    · refine ⟨added.positive _ new, alike.policyId.symm, congrArg some sameId.symm, ?_,
        longer ".1" (by decide), division.hostA, rfl⟩
      rw [newGroup, path]
      exact shownPath.append (by decide) (by decide)
    · refine ⟨added.positive _ new, alike.policyId.symm, congrArg some sameId.symm, ?_,
        longer ".2" (by decide), division.hostB, rfl⟩
      rw [newGroup, path]
      exact shownPath.append (by decide) (by decide)
  have tree' := tree.reorder reordered
  refine @Tree.divide _ _ tree' _ now _ listed (List.cons_ne_nil _ _) ?_ children' added.fresh
    (keepsSplit_of_update rfl fun _ => ⟨rfl, fun split => split⟩) ?_
  · intro g
    have retired' : ∀ old : GroupRow, retired leaf' now old =
        if decide (old.id = leaf.id) = true then
          { old with entryHost := "", globalSort := none, updatedAt := now } else old := by
      intro old
      simp only [retired, sameId, decide_eq_true_eq]
    simp only [retired']
    refine (Table.mem_updateWhere _ _ _ _ g).trans ?_
    constructor
    · rintro ⟨old, member, rfl⟩
      rcases (added.rows old).mp member with before | new
      · exact Or.inl ⟨old, before, rfl⟩
      · right
        have other := added.fresh old new leaf' listed
        rw [sameId] at other
        rwa [if_neg (by simpa using other.symm)]
    · rintro (⟨old, before, rfl⟩ | new)
      · exact ⟨old, (added.rows old).mpr (Or.inl before), rfl⟩
      · have other := added.fresh g new leaf' listed
        rw [sameId] at other
        exact ⟨g, (added.rows g).mpr (Or.inr new), if_neg (by simpa using other.symm)⟩
  · intro a there
    have image := (Table.mem_of_rows_map (rows_reassign { shifted with groups } _ _ _) a).mp there
    obtain ⟨old, before, rfl⟩ := image
    unfold handed
    split
    next chosen =>
      simp only [Bool.and_eq_true, decide_eq_true_eq] at chosen
      refine Or.inr ?_
      dsimp only
      split
      · exact ⟨_, List.mem_cons_self, rfl, chosen.1.symm⟩
      · exact ⟨_, List.mem_cons_of_mem _ List.mem_cons_self, rfl, chosen.1.symm⟩
    next other =>
      refine Or.inl ⟨before, ?_⟩
      intro isLeaf
      obtain ⟨g, there, id, policy, -⟩ := tree'.assigned old before
      rw [shifted.groups.eq_of_key there listed (id.trans isLeaf)] at policy
      apply other
      simp only [Bool.and_eq_true, decide_eq_true_eq]
      exact ⟨policy.symm.trans alike.policyId, isLeaf.trans sameId⟩

theorem edited_of_update (tree : Tree db) {p : GroupRow → Bool} {f : GroupRow → GroupRow}
    (rows : db'.groups.rows = db.groups.rows.map fun g => if p g then f g else g)
    (stays : ∀ g : GroupRow, g.Stays (f g))
    (fits : ∀ g ∈ db.groups, p g = true → Fitting (isLeaf db.groups g.id) (f g)) :
    Edited db db' := by
  constructor
  · intro g member
    refine ⟨if p g then f g else g, (Table.mem_of_rows_map rows _).mpr ⟨g, member, rfl⟩, ?_⟩
    split
    · exact stays g
    · exact ⟨rfl, rfl, rfl, rfl⟩
  · intro g' member
    obtain ⟨g, before, rfl⟩ := (Table.mem_of_rows_map rows g').mp member
    refine ⟨g, before, ?_⟩
    split
    next chosen => exact ⟨stays g, fits g before chosen⟩
    next => exact ⟨⟨rfl, rfl, rfl, rfl⟩, tree.fitting before⟩

theorem updateClientEntryUserPolicySplitGroupHost_tree (tree : Tree db)
    {req : GroupHostUpdateRequest} {now : Int}
    (returned : updateClientEntryUserPolicySplitGroupHost lib db req now = .ok db') :
    Tree db' := by
  obtain ⟨leaf, name, host, policies, members, f, listed, -, leafy, shown, -, rows, same, -,
    rfl⟩ := updateClientEntryUserPolicySplitGroupHost_cases lib returned
  refine tree.edit (edited_of_update tree rfl (fun _ => ⟨rfl, rfl, rfl, rfl⟩) ?_) ?_
    fun _ member => member
  · intro g member chosen
    obtain rfl := db.groups.eq_of_key member listed (of_decide_eq_true chosen)
    rw [Fitting, if_pos leafy]
    exact ⟨shown, (tree.leaf g listed leafy).2⟩
  · intro p member split
    refine ⟨f p, (Table.mem_of_rows_map rows _).mpr ⟨p, member, rfl⟩, (same p).id, ?_⟩
    exact (same p).mode.trans split

end

end ForestPanel.ClientEntry
