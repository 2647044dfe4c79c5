import ForestPanel.ClientEntry.Joined
import ForestPanel.ClientEntry.Normal

/-!
# Integrity of the split trees

Every request keeps the tree, so every reachable state has one. A division hands the users
of the leaf to its two children by their rank: the first half, rounded up, and the rest.
-/
namespace ForestPanel.ClientEntry

open Outcome Relational

section

variable (lib : EntryLibrary) {db db' : RuleBase}

theorem handle_tree (tree : Tree db) {request : Request}
    (returned : handle lib db request = .ok db') : Tree db' := by
  cases request with
  | savePolicy => exact saveClientEntryUserPolicy_tree lib tree returned
  | deletePolicy => exact deleteClientEntryUserPolicy_tree tree returned
  | setEnabled => exact setClientEntryUserPolicyEnabled_tree tree returned
  | createSplit => exact createClientEntryUserPolicySplit_tree lib tree returned
  | convert => exact convertClientEntryUserPolicyToSplit_tree lib tree returned
  | splitGroup =>
    obtain ⟨leaf, position, resolve, children, division, -, -, -, divided⟩ :=
      splitClientEntryUserPolicyGroup_cases lib returned
    exact divideLeaf_tree tree division divided
  | autoSplit =>
    rcases processNextClientEntryAutoSplit_cases lib returned with
      rfl | ⟨leaf, position, resolve, children, division, -, -, -, divided⟩
    · exact tree
    · exact divideLeaf_tree tree division divided
  | updateGroup => exact updateClientEntryUserPolicySplitGroupHost_tree lib tree returned
  | moveToRoot => exact moveClientEntryUserPolicySplitGroupToRoot_tree tree returned
  | sortGroups => exact tree.reorder (sortClientEntryUserPolicySplitGroups_reordered returned)
  | sortPolicies => exact tree.reorder (sortClientEntryUserPolicies_reordered returned)
  | sortRows => exact tree.reorder (sortClientEntryUserPolicyRows_reordered tree.placed returned)
  | moveRows => exact tree.reorder (moveClientEntryVisibleRows_reordered tree.placed returned)
  | saveCollection => exact saveClientEntryCollection_tree lib tree returned
  | deleteCollection => exact deleteClientEntryCollection_tree tree returned
  | removeMember => exact removeClientEntryCollectionMember_tree tree returned
  | deleteUsers ids =>
    cases returned
    refine tree.congr rfl (KeepsSplit.refl db) fun a member => ?_
    exact ((Table.mem_deleteWhere _ _ _).mp member).1
  | deleteServer =>
    cases returned
    exact tree.congr rfl (KeepsSplit.refl db) fun _ member => member
  | outside =>
    cases returned
    exact tree.congr rfl (KeepsSplit.refl db) fun _ member => member

theorem step_tree (tree : Tree db) (request : Request) : Tree (step lib db request) :=
  commit_cases _ _ tree fun _ returned => handle_tree lib tree returned

theorem run_tree (requests : List Request) :
    Tree (Transition.run (step lib) emptyRuleBase requests) :=
  Transition.run_invariant (I := Tree) (G := fun _ _ => True)
    (fun _ request tree _ => step_tree lib tree request) emptyRuleBase requests tree_empty
    (Transition.along_true _ _)

end

theorem usersOf_nodup (db : RuleBase) (policyId groupId : Int) :
    (usersOf db policyId groupId).Nodup := by
  have rows : db.assignments.rows.Nodup := List.Nodup.of_map _ db.assignments.keyed
  apply (rows.filter _).map_on
  intro a member b member' same
  rw [List.mem_filter, Bool.and_eq_true, decide_eq_true_eq, decide_eq_true_eq] at member member'
  refine db.assignments.eq_of_key member.1 member'.1 ?_
  rw [member.2.1, member'.2.1, same]

structure Halves (db db' : RuleBase) (policyId groupId : Int) (new : NewGroups) : Prop where
  users : (usersOf db' policyId new.groupA ++ usersOf db' policyId new.groupB).Perm
    (usersOf db policyId groupId)
  sizes : (usersOf db' policyId new.groupA).length ≤ (usersOf db' policyId new.groupB).length + 1 ∧
    (usersOf db' policyId new.groupB).length ≤ (usersOf db' policyId new.groupA).length + 1
  nonempty : usersOf db' policyId new.groupA ≠ [] ∧ usersOf db' policyId new.groupB ≠ []
  others : ∀ p g, (p, g) ≠ (policyId, groupId) → g ≠ new.groupA → g ≠ new.groupB →
    usersOf db' p g = usersOf db p g
  assigned : ∀ p u, (∃ a ∈ db'.assignments, a.policyId = p ∧ a.userId = u) ↔
    ∃ a ∈ db.assignments, a.policyId = p ∧ a.userId = u

/-- What a division does: a leaf becomes the parent of two leaves that share its users. -/
structure Halved (db db' : RuleBase) (policyId groupId : Int) (new : NewGroups) : Prop
    extends Halves db db' policyId groupId new where
  source : isLeaf db.groups groupId = true
  inner : isLeaf db'.groups groupId = false
  children : ∀ id, id = new.groupA ∨ id = new.groupB → isLeaf db'.groups id = true ∧
    ∃ g ∈ db'.groups, g.id = id ∧ g.policyId = policyId ∧ g.parentId = some groupId

variable {users : List Int} {policyId groupId : Int} {new : NewGroups} {rest : RuleBase}

section

variable {db db' : RuleBase}

private theorem usersOf_handed {p g : Int}
    (rows : rest.assignments.rows = db.assignments.rows.map (handed users policyId groupId new)) :
    usersOf rest p g = (db.assignments.rows.filter fun a =>
      a.policyId = p && (handed users policyId groupId new a).groupId = g).map
        AssignmentRow.userId := by
  have policy : ∀ a, (handed users policyId groupId new a).policyId = a.policyId := by
    intro a
    unfold handed
    split <;> rfl
  have user : ∀ a, (handed users policyId groupId new a).userId = a.userId := by
    intro a
    unfold handed
    split <;> rfl
  rw [usersOf, rows, List.filter_map, List.map_map]
  simp only [Function.comp_def, policy, user]

private theorem unassigned_of_fresh (tree : Tree db) {id : Int}
    (fresh : ∀ g ∈ db.groups, g.id ≠ id) : ∀ a ∈ db.assignments, a.groupId ≠ id := by
  intro a member same
  obtain ⟨g, listed, sameId, -⟩ := tree.assigned a member
  exact fresh g listed (sameId.trans same)

private theorem usersOf_child {child : Int} {pick : Int → Bool}
    (source : usersOf db policyId groupId = users)
    (rows : rest.assignments.rows = db.assignments.rows.map (handed users policyId groupId new))
    (fate : ∀ u, (if Ranking.rank users u ≤ (users.length + 1) / 2
      then new.groupA else new.groupB) = child ↔ pick u = true)
    (fresh : ∀ a ∈ db.assignments, a.groupId ≠ child) :
    usersOf rest policyId child = users.filter pick := by
  rw [usersOf_handed rows]
  conv_rhs => rw [← source, usersOf, List.filter_map, List.filter_filter]
  apply congrArg (List.map AssignmentRow.userId)
  apply List.filter_congr
  intro a member
  by_cases inside : (a.policyId = policyId && a.groupId = groupId) = true
  · rw [handed, if_pos inside, inside]
    simp only [Bool.and_eq_true, decide_eq_true_eq] at inside
    simp only [inside.1, decide_true, Bool.true_and, Function.comp_apply, Bool.and_true]
    rw [Bool.eq_iff_iff, decide_eq_true_eq]
    exact fate a.userId
  · rw [handed, if_neg inside]
    have notChild := fresh a member
    simp only [notChild, decide_false, Bool.and_false]
    rw [Bool.not_eq_true] at inside
    rw [inside, Bool.and_false]

private theorem usersOf_other
    (rows : rest.assignments.rows = db.assignments.rows.map (handed users policyId groupId new))
    {p g : Int} (notSource : (p, g) ≠ (policyId, groupId)) (notA : g ≠ new.groupA)
    (notB : g ≠ new.groupB) : usersOf rest p g = usersOf db p g := by
  rw [usersOf_handed rows]
  apply congrArg (List.map AssignmentRow.userId)
  apply List.filter_congr
  intro a _
  by_cases inside : (a.policyId = policyId && a.groupId = groupId) = true
  · -- a row of the source is in neither group
    have left : (handed users policyId groupId new a).groupId ≠ g := by
      rw [handed, if_pos inside]
      dsimp only
      split
      · exact notA.symm
      · exact notB.symm
    simp only [Bool.and_eq_true, decide_eq_true_eq] at inside
    have outside : ¬(a.policyId = p ∧ a.groupId = g) := by
      rintro ⟨rfl, rfl⟩
      exact notSource (by rw [inside.1, inside.2])
    rw [decide_eq_false left, Bool.and_false, ← Bool.decide_and, decide_eq_false outside]
  · rw [handed, if_neg inside]

private theorem assigned_handed
    (rows : rest.assignments.rows = db.assignments.rows.map (handed users policyId groupId new))
    (p u : Int) : (∃ a ∈ rest.assignments, a.policyId = p ∧ a.userId = u) ↔
      ∃ a ∈ db.assignments, a.policyId = p ∧ a.userId = u := by
  have keeps : ∀ a, (handed users policyId groupId new a).policyId = a.policyId ∧
      (handed users policyId groupId new a).userId = a.userId := by
    intro a
    unfold handed
    split <;> exact ⟨rfl, rfl⟩
  constructor
  · rintro ⟨a', member, samePolicy, sameUser⟩
    obtain ⟨a, before, rfl⟩ := (Table.mem_of_rows_map rows a').mp member
    exact ⟨a, before, (keeps a).1.symm.trans samePolicy, (keeps a).2.symm.trans sameUser⟩
  · rintro ⟨a, member, samePolicy, sameUser⟩
    exact ⟨_, (Table.mem_of_rows_map rows _).mpr ⟨a, member, rfl⟩, (keeps a).1.trans samePolicy,
      (keeps a).2.trans sameUser⟩

theorem halves_of_handed (source : usersOf db policyId groupId = users)
    (rows : rest.assignments.rows = db.assignments.rows.map (handed users policyId groupId new))
    (enough : 2 ≤ users.length) (different : new.groupA ≠ new.groupB)
    (freshA : ∀ a ∈ db.assignments, a.groupId ≠ new.groupA)
    (freshB : ∀ a ∈ db.assignments, a.groupId ≠ new.groupB) :
    Halves db rest policyId groupId new := by
  have distinct : users.Nodup := source ▸ usersOf_nodup db policyId groupId
  have inA : usersOf rest policyId new.groupA =
      users.filter fun u => Ranking.rank users u ≤ (users.length + 1) / 2 := by
    apply usersOf_child source rows _ freshA
    intro u
    split
    next low => simpa using low
    next high => simpa [Ne.symm different] using high
  have inB : usersOf rest policyId new.groupB =
      users.filter fun u => ¬Ranking.rank users u ≤ (users.length + 1) / 2 := by
    apply usersOf_child source rows _ freshB
    intro u
    split
    next low => simpa [different] using low
    next high => simpa using high
  have sizeA := Ranking.countP_rank_le distinct ((users.length + 1) / 2)
  have sizeB := Ranking.countP_rank_gt distinct ((users.length + 1) / 2)
  rw [List.countP_eq_length_filter, ← inA] at sizeA
  rw [List.countP_eq_length_filter, ← inB] at sizeB
  refine ⟨?_, ⟨by omega, by omega⟩, ⟨?_, ?_⟩, fun p g => usersOf_other rows,
    assigned_handed rows⟩
  · rw [inA, inB, source]
    have parts := List.filter_append_perm
      (fun u => decide (Ranking.rank users u ≤ (users.length + 1) / 2)) users
    simpa only [decide_not] using parts
  · intro empty
    rw [empty, List.length_nil] at sizeA
    omega
  · intro empty
    rw [empty, List.length_nil] at sizeB
    omega

private theorem halved_of_children (tree' : Tree db') {leaf : GroupRow} {position resolve : Int}
    {children : Children} {now : Int}
    (halves : Halves db db' leaf.policyId leaf.id children.new)
    (division : Division db leaf position resolve children)
    (listed : ∀ g ∈ dividedGroups leaf position resolve children now, g ∈ db'.groups) :
    Halved db db' leaf.policyId leaf.id children.new := by
  have leafy : ∀ g ∈ db'.groups, g.entryHost ≠ "" → isLeaf db'.groups g.id = true := by
    intro g member host
    by_contra inner
    exact host (tree'.inner g member (Bool.eq_false_iff.mpr inner)).1
  have first := listed _ List.mem_cons_self
  have second := listed _ (List.mem_cons_of_mem _ List.mem_cons_self)
  refine { halves with
    source := division.isLeaf
    inner := ?_
    children := ?_ }
  · rw [Bool.eq_false_iff]
    intro leaf
    exact isLeaf_iff.mp leaf _ first rfl
  · rintro id (rfl | rfl)
    · exact ⟨leafy _ first division.hostA.1, _, first, rfl, rfl, rfl⟩
    · exact ⟨leafy _ second division.hostB.1, _, second, rfl, rfl, rfl⟩

theorem divideLeaf_halved (tree : Tree db) {leaf : GroupRow} {position resolve : Int}
    {children : Children} {now : Int} (division : Division db leaf position resolve children)
    (divided : divideLeaf db leaf position resolve children now = some db') :
    Halved db db' leaf.policyId leaf.id children.new := by
  have tree' := divideLeaf_tree tree division divided
  obtain ⟨shifted, groups, shift, added, rfl⟩ := divideLeaf_cases divided
  have reordered := shiftVisibleSortsAfter_reordered shift
  obtain ⟨leaf', listed, alike⟩ := reordered.symm.group division.listed
  have freshOf : ∀ g ∈ dividedGroups leaf position resolve children now,
      ∀ a ∈ db.assignments, a.groupId ≠ g.id := by
    intro g new
    have none := unassigned_of_fresh (tree.reorder reordered) (added.fresh g new)
    rwa [reordered.assignments] at none
  have rows : (reassign { shifted with groups } leaf.policyId leaf.id
      children.new).assignments.rows = db.assignments.rows.map
      (handed (usersOf db leaf.policyId leaf.id) leaf.policyId leaf.id children.new) := by
    rw [rows_reassign, usersOf, reordered.assignments]
    rfl
  have different := (List.pairwise_pair (R := fun a b : GroupRow => a.id ≠ b.id)).mp added.distinct
  refine @halved_of_children _ _ tree' _ _ _ _ now ?_ division ?_
  · exact halves_of_handed rfl rows division.enough different (freshOf _ List.mem_cons_self)
      (freshOf _ (List.mem_cons_of_mem _ List.mem_cons_self))
  intro g new
  have other := added.fresh g new leaf' listed
  rw [alike.id] at other
  apply (Table.mem_updateWhere _ _ _ _ g).mpr
  · exact ⟨g, (added.rows g).mpr (Or.inr new), if_neg (by simpa using other.symm)⟩
  · exact fun _ => ⟨rfl, rfl⟩

end

/-- Users are in one leaf of each split rule, leaves are the groups with an entry, and
paths tell the groups of a rule apart. -/
structure Intact (db : RuleBase) : Prop where
  once : ∀ a ∈ db.assignments, ∀ b ∈ db.assignments, a.policyId = b.policyId →
    a.userId = b.userId → a = b
  toLeaf : ∀ a ∈ db.assignments, ∃ g ∈ db.groups, g.id = a.groupId ∧ g.policyId = a.policyId ∧
    isLeaf db.groups g.id = true
  leaf : ∀ g ∈ db.groups, isLeaf db.groups g.id = true ↔
    g.entryHost ≠ "" ∧ g.globalSort.isSome = true
  paths : ∀ g ∈ db.groups, ∀ h ∈ db.groups, g.policyId = h.policyId → g.path = h.path → g = h

theorem Tree.intact {db : RuleBase} (tree : Tree db) : Intact db := by
  constructor
  · intro a member b member' policy user
    exact db.assignments.eq_of_key member member' (Prod.ext policy user)
  · exact tree.assigned
  · intro g member
    constructor
    · intro leaf
      obtain ⟨shown, placed⟩ := tree.leaf g member leaf
      exact ⟨shown.1, placed⟩
    · rintro ⟨host, -⟩
      by_contra inner
      exact host (tree.inner g member (Bool.eq_false_iff.mpr inner)).1
  · intro g member h member' policy path
    exact db.groups.eq_of_uniq member member' (Prod.ext policy path)

/-- In every reachable state the trees are intact, and a division there, by hand or by the
worker, halves the users of its leaf. -/
theorem split_trees_stay_intact (lib : EntryLibrary) (requests : List Request) :
    Intact (Transition.run (step lib) emptyRuleBase requests) ∧
      (∀ req pool new now db',
        handle lib (Transition.run (step lib) emptyRuleBase requests)
          (.splitGroup req pool new now) = .ok db' →
        Halved (Transition.run (step lib) emptyRuleBase requests) db' req.policyId req.groupId
          new) ∧
      ∀ operation pool new now db',
        handle lib (Transition.run (step lib) emptyRuleBase requests)
          (.autoSplit operation pool new now) = .ok db' →
        db' = Transition.run (step lib) emptyRuleBase requests ∨
          Halved (Transition.run (step lib) emptyRuleBase requests) db' operation.policyId
            operation.sourceGroupId new := by
  have tree := run_tree lib requests
  refine ⟨tree.intact, ?_, ?_⟩
  · intro req pool new now db' returned
    obtain ⟨leaf, position, resolve, children, division, policy, id, rfl, divided⟩ :=
      splitClientEntryUserPolicyGroup_cases lib returned
    rw [← policy, ← id]
    exact divideLeaf_halved tree division divided
  · intro operation pool new now db' returned
    rcases processNextClientEntryAutoSplit_cases lib returned with
      same | ⟨leaf, position, resolve, children, division, policy, id, rfl, divided⟩
    · exact Or.inl same
    · right
      rw [← policy, ← id]
      exact divideLeaf_halved tree division divided

/-! A rule over four users, whose group of two users is divided. -/

def asciiEntryLibrary : EntryLibrary where
  toStandardLibrary := asciiLibrary
  parseAddr := fun _ => none
  parseAddr_visible := fun _ _ impossible => nomatch impossible
  normalizeList := .ok

private def fourUsers : Request :=
  .outside
    { rows := [1, 2, 3, 4].map fun id => ⟨id, "", none, 1⟩
      keyed := by decide
      unique := by decide }
    { rows := [1, 2, 3, 4].map fun id => ⟨id, 50⟩
      keyed := by decide
      unique := by decide }
    [("vmess", 1)]

private def newRule : Request :=
  .createSplit ⟨none, false, "rule", 60, [⟨"vmess", 1⟩], "a.example", "b.example", none, none, ""⟩
    1 ⟨1, 2⟩ 100

private def divideFirst : Request :=
  .splitGroup ⟨1, 1, "c.example", "d.example", false⟩ (.error "") ⟨3, 4⟩ 200

theorem first_group_halved :
    Halved (Transition.run (step asciiEntryLibrary) emptyRuleBase [fourUsers, newRule])
      (Transition.run (step asciiEntryLibrary) emptyRuleBase [fourUsers, newRule, divideFirst])
      1 1 ⟨3, 4⟩ := by
  have done : (handle asciiEntryLibrary
      (Transition.run (step asciiEntryLibrary) emptyRuleBase [fourUsers, newRule])
      divideFirst).isOk = true := by
    decide +kernel
  obtain ⟨-, halves, -⟩ := split_trees_stay_intact asciiEntryLibrary [fourUsers, newRule]
  cases returned : handle asciiEntryLibrary
      (Transition.run (step asciiEntryLibrary) emptyRuleBase [fourUsers, newRule]) divideFirst with
  | error e =>
    rw [returned] at done
    cases done
  | ok db' =>
    have last : Transition.run (step asciiEntryLibrary) emptyRuleBase
        [fourUsers, newRule, divideFirst] = db' := by
      rw [Transition.run_cons, Transition.run_cons, Transition.run_cons, Transition.run_nil]
      exact congrArg (commit _) returned
    rw [last]
    exact halves _ _ _ _ _ returned

/-- In every reachable state exactly the leaves below another group can be moved to the root, and
such a move takes no user from a leaf, and no leaf, entry or place from the list. -/
theorem leaf_moves_to_root (lib : EntryLibrary) (requests : List Request)
    (policyId groupId now : Int) :
    let db := Transition.run (step lib) emptyRuleBase requests
    ((∃ db', handle lib db (.moveToRoot policyId groupId now) = .ok db') ↔
      0 < policyId ∧ ∃ g ∈ db.groups, g.id = groupId ∧ g.policyId = policyId ∧
        g.parentId ≠ none ∧ isLeaf db.groups groupId = true) ∧
    ∀ db', handle lib db (.moveToRoot policyId groupId now) = .ok db' →
      (∀ a, a ∈ db'.assignments ↔ a ∈ db.assignments) ∧
      ∀ g ∈ db.groups, isLeaf db.groups g.id = true → ∃ g' ∈ db'.groups, g'.id = g.id ∧
        g'.policyId = g.policyId ∧ g'.entryHost = g.entryHost ∧ g'.globalSort = g.globalSort := by
  intro db
  have tree : Tree db := run_tree lib requests
  refine ⟨⟨?_, ?_⟩, ?_⟩
  · rintro ⟨db', returned⟩
    obtain ⟨target, parent, -, -, -, -, listed, rfl, rfl, below, none, -⟩ :=
      moveClientEntryUserPolicySplitGroupToRoot_cases tree returned
    have positive : 0 < target.policyId := by
      simp only [handle, moveClientEntryUserPolicySplitGroupToRoot, bind_eq_ok, ensure_eq_ok]
        at returned
      exact returned.choose_spec.1.1
    exact ⟨positive, target, listed, rfl, rfl, by simp [below],
      isLeaf_of_childCount tree listed none⟩
  · rintro ⟨positive, g, listed, rfl, rfl, below, leaf⟩
    obtain ⟨parent, below⟩ := Option.ne_none_iff_exists'.mp below
    exact moveClientEntryUserPolicySplitGroupToRoot_ok tree listed leaf positive below
  · intro db' returned
    obtain ⟨target, parent, path, sort, moved, pruned, -, -, rfl, -, -, -, rows, kept, rfl⟩ :=
      moveClientEntryUserPolicySplitGroupToRoot_cases tree returned
    refine ⟨kept.assignments, ?_⟩
    intro g listed leaf
    have member := (Table.mem_of_rows_map rows _).mpr ⟨g, listed, rfl⟩
    have same : (movedGroup target.id target.policyId path sort now g).id = g.id := by
      unfold movedGroup
      split <;> rfl
    refine ⟨_, kept.kept _ member (by rw [same]; exact childCount_of_isLeaf leaf), same, ?_⟩
    unfold movedGroup
    split <;> exact ⟨rfl, rfl, rfl⟩

end ForestPanel.ClientEntry
