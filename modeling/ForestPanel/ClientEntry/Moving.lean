import ForestPanel.ClientEntry.Prune

/-!
# A leaf moves to the root

The move finds a free path, because one of more candidates than there are paths is free,
takes the leaf from its parent and removes the ancestors this empties.
-/
namespace ForestPanel.ClientEntry

open Outcome Relational

theorem rootPath_visible (index : Nat) : ∀ c ∈ (rootPath index).toList, isSpace c = false := by
  intro c member
  unfold rootPath at member
  split at member
  next letter =>
    have only : c = Char.ofNat ('A'.toNat + index) := by simpa using member
    rw [only]
    clear only member
    revert index
    decide
  next later =>
    rw [String.toList_append, List.mem_append] at member
    rcases member with mark | digit
    · have only : c = 'R' := by simpa using mark
      rw [only]
      decide
    · rw [String.toList_ofList] at digit
      have bounds := Decimal.toNat_of_isDigit (Decimal.toDigits_isDigit digit)
      simp only [isSpace, List.mem_cons, List.not_mem_nil, or_false, Bool.or_eq_false_iff,
        decide_eq_false_iff_not, Bool.and_eq_false_iff]
      omega

theorem rootPath_shown (index : Nat) : Shown (rootPath index) := by
  apply shown_of_visible _ (rootPath_visible index)
  intro empty
  have chars := congrArg String.toList empty
  unfold rootPath at chars
  split at chars
  · simp at chars
  · rw [String.toList_append] at chars
    simp at chars

private theorem letters_injective :
    ∀ i < 26, ∀ j < 26, Char.ofNat ('A'.toNat + i) = Char.ofNat ('A'.toNat + j) → i = j := by
  decide

private theorem length_of_later (index : Nat) :
    1 < ("R" ++ String.ofList (Nat.toDigits 10 (index - 25))).toList.length := by
  have digits : 0 < (Nat.toDigits 10 (index - 25)).length := Nat.length_toDigits_pos
  simpa [String.toList_append] using digits

theorem rootPath_injective {i j : Nat} (same : rootPath i = rootPath j) : i = j := by
  have chars := congrArg String.toList same
  unfold rootPath at chars
  split at chars
  next letter =>
    split at chars
    next letter' =>
      apply letters_injective i letter j letter'
      simpa using chars
    next later =>
      have longer := length_of_later j
      rw [← chars] at longer
      simp at longer
  next later =>
    split at chars
    next letter =>
      have longer := length_of_later i
      rw [chars] at longer
      simp at longer
    next later' =>
      simp only [String.toList_append, String.toList_ofList] at chars
      have digits := List.append_cancel_left chars
      have numbers := congrArg (fun text => Nat.ofDigitChars 10 text 0) digits
      simp only [Nat.ofDigitChars_ten_toDigits] at numbers
      omega

/-- The search ends: not every candidate is taken. -/
private theorem nextRootPathFrom_isSome (paths : List String) (fuel index : Nat)
    (taken : ∀ i < index, rootPath i ∈ paths) (enough : paths.length < index + fuel) :
    (nextRootPathFrom paths fuel index).isSome = true := by
  induction fuel generalizing index with
  | zero =>
    -- pigeonhole: more distinct candidates than paths
    have distinct : ((List.range index).map rootPath).Nodup :=
      List.nodup_range.map fun _ _ same => rootPath_injective same
    have inside : (List.range index).map rootPath ⊆ paths := by
      intro path member
      obtain ⟨i, below, rfl⟩ := List.mem_map.mp member
      exact taken i (List.mem_range.mp below)
    have bound := (List.subperm_of_subset distinct inside).length_le
    rw [List.length_map, List.length_range] at bound
    omega
  | succ fuel ih =>
    rw [nextRootPathFrom]
    split
    next clash =>
      apply ih
      · intro i below
        rcases Nat.lt_succ_iff_lt_or_eq.mp below with before | rfl
        · exact taken i before
        · exact clash
      · omega
    next => rfl

theorem nextClientEntrySplitRootPath_isSome (paths : List String) :
    (nextClientEntrySplitRootPath paths).isSome = true := by
  apply nextRootPathFrom_isSome
  · intro i below
    exact absurd below (Nat.not_lt_zero i)
  · omega

variable {path : String} {policyId now : Int}

private theorem nextRootPathFrom_free {paths : List String} {fuel index : Nat}
    (found : nextRootPathFrom paths fuel index = some path) : Shown path ∧ path ∉ paths := by
  induction fuel generalizing index with
  | zero => cases found
  | succ fuel ih =>
    rw [nextRootPathFrom] at found
    split at found
    next => exact ih found
    next free =>
      obtain rfl := Option.some.inj found
      exact ⟨rootPath_shown index, free⟩

theorem nextClientEntrySplitRootPath_free {paths : List String}
    (found : nextClientEntrySplitRootPath paths = some path) : Shown path ∧ path ∉ paths :=
  nextRootPathFrom_free found

section

variable {db : RuleBase}

def groupsOf (db : RuleBase) (policyId : Int) : List GroupRow :=
  db.groups.rows.filter fun g => g.policyId = policyId

theorem mem_groupsOf {g : GroupRow} :
    g ∈ groupsOf db policyId ↔ g ∈ db.groups ∧ g.policyId = policyId := by
  rw [groupsOf, List.mem_filter, decide_eq_true_eq]
  rfl

theorem isLeaf_of_childCount (tree : Tree db) {g : GroupRow} (member : g ∈ db.groups)
    (none : childCount db.groups.rows g.policyId g.id = 0) : isLeaf db.groups g.id = true := by
  rw [isLeaf_iff]
  intro child listed below
  obtain ⟨h, above, same, policy, -⟩ := tree.parent child listed g.id below
  rw [db.groups.eq_of_key above member same] at policy
  have counted := List.countP_eq_zero.mp none child
    (List.mem_filter.mpr ⟨listed, by simp [policy]⟩)
  simp [below] at counted

private theorem childCount_moved (groups moved : GroupTable) {target : GroupRow}
    (listed : target ∈ groups) {sort : Int}
    (rows : moved.rows = groups.rows.map (movedGroup target.id target.policyId path sort now))
    (id : Int) :
    childCount moved.rows target.policyId id + (if target.parentId = some id then 1 else 0) =
      childCount groups.rows target.policyId id := by
  have counted := groups.countP_other listed fun h =>
    h.policyId = target.policyId && h.parentId = some id
  simp only [decide_true, Bool.true_and, decide_eq_true_eq] at counted
  rw [childCount, childCount, List.countP_filter, List.countP_filter, rows, List.countP_map]
  rw [List.countP_congr (q := fun h => (decide (h.policyId = target.policyId) &&
    decide (h.parentId = some id)) && decide (h.id ≠ target.id)), counted]
  · apply List.countP_congr
    intro h _
    simp [and_comm]
  · intro h member
    by_cases same : h.id = target.id
    · obtain rfl := groups.eq_of_key member listed same
      simp [movedGroup]
    · simp [movedGroup, same, and_comm]

theorem climbing_start (tree : Tree db) {target : GroupRow} {parent : Int} {sort : Int}
    {moved : GroupTable} (listed : target ∈ db.groups)
    (none : childCount db.groups.rows target.policyId target.id = 0)
    (below : target.parentId = some parent) (shown : Shown path)
    (rows : moved.rows = db.groups.rows.map (movedGroup target.id target.policyId path sort now)) :
    Climbing (groupsOf db target.policyId)
      (fun id => childCount db.groups.rows target.policyId id) target.policyId target.id
      { db with groups := moved } parent := by
  have leaf := isLeaf_of_childCount tree listed none
  have groups := Table.mem_of_rows_map rows
  have counting := childCount_moved db.groups moved listed rows
  obtain ⟨up, above, upId, upPolicy, -⟩ := tree.parent target listed parent below
  have notTarget : parent ≠ target.id := by
    rintro rfl
    exact isLeaf_iff.mp leaf target listed below
  have stays : ∀ g, g.id ≠ target.id →
      movedGroup target.id target.policyId path sort now g = g := by
    intro g other
    exact if_neg (by simp [other])
  constructor
  case state => exact Emptied.start tree listed leaf below shown rfl rfl groups
  case known =>
    intro g member policy other
    obtain ⟨old, before, rfl⟩ := (groups g).mp member
    by_cases same : old.id = target.id
    · obtain rfl := db.groups.eq_of_key before listed same
      simp [movedGroup] at other
    · rw [stays old same] at policy ⊢
      exact mem_groupsOf.mpr ⟨before, policy⟩
  case target =>
    rw [isLeaf_iff]
    intro child member up'
    obtain ⟨old, before, rfl⟩ := (groups child).mp member
    by_cases same : old.id = target.id
    · obtain rfl := db.groups.eq_of_key before listed same
      simp [movedGroup] at up'
    · rw [stays old same] at up'
      exact isLeaf_iff.mp leaf old before up'
  case row =>
    refine ⟨up, (groups up).mpr ⟨up, above, stays up ?_⟩, upId, upPolicy⟩
    rw [upId]
    exact notTarget
  case other => exact notTarget
  case counts =>
    intro g _ other
    have counted := counting g.id
    rw [if_neg (by rw [below]; simpa using fun same => other same.symm), Nat.add_zero] at counted
    exact counted
  case last =>
    have counted := counting parent
    rw [if_pos below] at counted
    exact counted

private theorem groupsOf_unique (policyId : Int) :
    ∀ g ∈ groupsOf db policyId, ∀ h ∈ groupsOf db policyId, g.id = h.id → g = h := by
  intro g member h member' same
  exact db.groups.eq_of_key (mem_groupsOf.mp member).1 (mem_groupsOf.mp member').1 same

theorem moveClientEntryUserPolicySplitGroupToRoot_cases (tree : Tree db) {groupId : Int}
    {db' : RuleBase}
    (returned : moveClientEntryUserPolicySplitGroupToRoot db policyId groupId now = .ok db') :
    ∃ target parent path sort moved pruned, target ∈ db.groups ∧ target.id = groupId ∧
      target.policyId = policyId ∧ target.parentId = some parent ∧
      childCount db.groups.rows target.policyId target.id = 0 ∧ Shown path ∧
      moved.rows = db.groups.rows.map (movedGroup target.id target.policyId path sort now) ∧
      Pruned (fun id => childCount db.groups.rows target.policyId id) { db with groups := moved }
        pruned ∧
      db' = { pruned with
        policies := pruned.policies.updateWhere
          (fun p => p.id = policyId && p.mode = .split)
          (fun p => { p with updatedAt := now })
          fun _ => ⟨rfl, rfl⟩ } := by
  simp only [moveClientEntryUserPolicySplitGroupToRoot, bind_eq_ok, ensure_eq_ok, exists_const,
    require_eq_ok, pure_eq_ok] at returned
  obtain ⟨-, -, target, found, parent, below, none, path, free, moved, updated, pruned, removed,
    rfl⟩ := returned
  have member := List.mem_of_find?_eq_some found
  have id : target.id = groupId := by simpa using List.find?_some found
  obtain ⟨listed, policy⟩ := mem_groupsOf.mp member
  subst id policy
  obtain ⟨shown, -⟩ := nextClientEntrySplitRootPath_free free
  have climbing := climbing_start tree listed none below shown (Table.rows_of_updateUnique? updated)
  exact ⟨target, parent, path, _, moved, pruned, listed, rfl, rfl, below, none, shown,
    Table.rows_of_updateUnique? updated,
    removeAncestors_pruned (groupsOf_unique target.policyId) climbing removed, rfl⟩

theorem moveClientEntryUserPolicySplitGroupToRoot_tree (tree : Tree db) {groupId : Int}
    {db' : RuleBase}
    (returned : moveClientEntryUserPolicySplitGroupToRoot db policyId groupId now = .ok db') :
    Tree db' := by
  obtain ⟨target, parent, path, sort, moved, pruned, -, -, -, -, -, -, -, kept, rfl⟩ :=
    moveClientEntryUserPolicySplitGroupToRoot_cases tree returned
  refine kept.tree.congr rfl ?_ fun _ member => member
  intro p member split
  refine ⟨if p.id = policyId && p.mode = .split then { p with updatedAt := now } else p, ?_, ?_⟩
  · rw [Table.mem_updateWhere]
    exact ⟨p, member, rfl⟩
  · split
    · exact ⟨rfl, split⟩
    · exact ⟨rfl, split⟩

theorem childCount_of_isLeaf {id : Int} (leaf : isLeaf db.groups id = true) :
    childCount db.groups.rows policyId id = 0 := by
  rw [childCount, List.countP_eq_zero]
  intro child member
  simpa using isLeaf_iff.mp leaf child (List.mem_filter.mp member).1

/-- A leaf below another group can always be moved: a path is free, the row keeps its keys, and
every ancestor has a shorter path than the one before. -/
theorem moveClientEntryUserPolicySplitGroupToRoot_ok (tree : Tree db) {target : GroupRow}
    (listed : target ∈ db.groups) (leaf : isLeaf db.groups target.id = true)
    (positive : 0 < target.policyId) {parent : Int} (below : target.parentId = some parent) :
    ∃ db',
      moveClientEntryUserPolicySplitGroupToRoot db target.policyId target.id now = .ok db' := by
  have childless : childCount db.groups.rows target.policyId target.id = 0 :=
    childCount_of_isLeaf leaf
  obtain ⟨path, free⟩ := Option.isSome_iff_exists.mp (nextClientEntrySplitRootPath_isSome
    ((groupsOf db target.policyId).map fun g => trimSpace g.path))
  obtain ⟨shown, unused⟩ := nextClientEntrySplitRootPath_free free
  obtain ⟨p, owns, id, isSplit⟩ := tree.owner target listed
  have found : (groupsOf db target.policyId).find? (fun g => g.id = target.id) = some target := by
    rw [groupsOf, List.find?_filter]
    refine db.groups.rows_find? listed (by simp) fun g member asked => ?_
    simp only [decide_eq_true_eq] at asked
    exact db.groups.eq_of_key member listed asked.2
  have moves : ∀ sort, ∃ moved, db.groups.updateUnique?
      (fun g => g.id = target.id && g.policyId = target.policyId)
      (fun g => { g with parentId := none, path, sort, updatedAt := now }) = some moved := by
    intro sort
    apply Table.updateUnique?_of_single listed
    · intro g member chosen
      simp only [Bool.and_eq_true, decide_eq_true_eq] at chosen
      exact db.groups.eq_of_key member listed chosen.1
    · rfl
    · intro g member _ same
      simp only [Prod.mk.injEq] at same
      apply unused
      rw [← same.2]
      refine List.mem_map.mpr ⟨g, mem_groupsOf.mpr ⟨member, same.1⟩, ?_⟩
      exact (tree.path g member).2
  obtain ⟨moved, updated⟩ := moves (((groupsOf db target.policyId).filter fun g =>
    g.parentId.isNone).map GroupRow.sort |>.foldl max 0 |> (· + clientEntryRuleSortStep))
  have rows := Table.rows_of_updateUnique? updated
  have climbing := climbing_start tree listed childless below shown rows
  have enough : ∀ g ∈ moved, g.id = parent → g.path.length < target.path.length + 1 := by
    intro g member isParent
    obtain ⟨old, before, rfl⟩ := (Table.mem_of_rows_map rows g).mp member
    obtain ⟨up, above, upId, -, shorter⟩ := tree.parent target listed parent below
    by_cases chosen : (old.id = target.id && old.policyId = target.policyId) = true
    · rw [if_pos chosen] at isParent
      simp only [Bool.and_eq_true, decide_eq_true_eq] at chosen
      exact absurd (isParent.symm.trans chosen.1) climbing.other
    · rw [if_neg chosen] at isParent ⊢
      rw [db.groups.eq_of_key before above (isParent.trans upId.symm)]
      omega
  obtain ⟨pruned, removed⟩ := Option.isSome_iff_exists.mp
    (removeAncestors_ends (groupsOf_unique target.policyId) climbing enough)
  simp only [moveClientEntryUserPolicySplitGroupToRoot, bind_eq_ok, ensure_eq_ok, exists_const,
    require_eq_ok, pure_eq_ok]
  exact ⟨_, ⟨positive, tree.positive target listed⟩, decide_eq_true ⟨p, owns, id, isSplit⟩, target,
    found, parent, below, childless, path, free, moved, updated, pruned, removed, rfl⟩

end

end ForestPanel.ClientEntry
