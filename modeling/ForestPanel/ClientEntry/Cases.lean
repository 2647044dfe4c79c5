import ForestPanel.ClientEntry.Prune

/-!
# What the operations do

One lemma for each operation says what it did to the tables when it committed; the
invariants are derived from these.
-/
namespace ForestPanel.ClientEntry

open Outcome Relational

variable {policyId now : Int} {pool : Except String (List BackupIP)} {new : NewGroups}

section

variable {db db' : RuleBase}

theorem insertPolicy_cases {p : PolicyRow} (inserted : insertPolicy db p = some db') :
    0 < p.id ∧ (∀ q ∈ db.policies, q.id ≠ p.id) ∧ ∃ policies, db' = { db with policies } ∧
      ∀ q, q ∈ policies ↔ q ∈ db.policies ∨ q = p := by
  unfold insertPolicy at inserted
  rw [Option.ite_none_right_eq_some] at inserted
  obtain ⟨positive, inserted⟩ := inserted
  obtain ⟨policies, grown, statement⟩ := Option.bind_eq_some_iff.mp inserted
  obtain ⟨-, rfl⟩ := checked_eq_some.mp statement
  have fresh := ((db.policies.insert?_eq_some policies p).mp grown).2.1
  exact ⟨positive, fresh, policies, rfl, Table.mem_of_insert? grown⟩

theorem insertGroup_cases {g : GroupRow} (inserted : insertGroup db g = some db') :
    0 < g.id ∧ (∀ h ∈ db.groups, h.id ≠ g.id) ∧ ∃ groups, db' = { db with groups } ∧
      ∀ h, h ∈ groups ↔ h ∈ db.groups ∨ h = g := by
  unfold insertGroup at inserted
  rw [Option.ite_none_right_eq_some] at inserted
  obtain ⟨positive, inserted⟩ := inserted
  obtain ⟨groups, grown, statement⟩ := Option.bind_eq_some_iff.mp inserted
  obtain ⟨-, rfl⟩ := checked_eq_some.mp statement
  have fresh := ((db.groups.insert?_eq_some groups g).mp grown).2.1
  exact ⟨positive, fresh, groups, rfl, Table.mem_of_insert? grown⟩

structure Added (before : GroupTable) (new : List GroupRow) (groups : GroupTable) : Prop where
  positive : ∀ g ∈ new, 0 < g.id
  fresh : ∀ g ∈ new, ∀ h ∈ before, h.id ≠ g.id
  distinct : new.Pairwise fun a b => a.id ≠ b.id
  rows : ∀ g, g ∈ groups ↔ g ∈ before ∨ g ∈ new

theorem insertGroup_added {g : GroupRow} (inserted : insertGroup db g = some db') :
    ∃ groups, Added db.groups [g] groups ∧ db' = { db with groups } := by
  obtain ⟨positive, fresh, groups, rfl, rows⟩ := insertGroup_cases inserted
  refine ⟨groups, ⟨?_, ?_, List.pairwise_singleton _ _, ?_⟩, rfl⟩
  · intro h only
    rw [List.mem_singleton.mp only]
    exact positive
  · intro h only
    rw [List.mem_singleton.mp only]
    exact fresh
  · intro h
    rw [List.mem_singleton]
    exact rows h

theorem insertGroups_added {a b : GroupRow} {between : RuleBase}
    (first : insertGroup db a = some between) (second : insertGroup between b = some db') :
    ∃ groups, Added db.groups [a, b] groups ∧ db' = { db with groups } := by
  obtain ⟨positive, fresh, groups, rfl, rows⟩ := insertGroup_cases first
  obtain ⟨positive', fresh', groups', rfl, rows'⟩ := insertGroup_cases second
  have freshB : ∀ h ∈ db.groups, h.id ≠ b.id := fun h member =>
    fresh' h ((rows h).mpr (Or.inl member))
  have different : a.id ≠ b.id := fresh' a ((rows a).mpr (Or.inr rfl))
  refine ⟨groups', ⟨?_, ?_, List.pairwise_pair.mpr different, ?_⟩, rfl⟩
  · simpa using ⟨positive, positive'⟩
  · simpa using ⟨fresh, freshB⟩
  · intro h
    dsimp only at rows'
    rw [rows', rows, List.mem_pair, or_assoc]

theorem insertAssignments_cases {rows : List AssignmentRow}
    (inserted : insertAssignments db rows = some db') :
    ∃ assignments, db' = { db with assignments } ∧
      assignments.rows = db.assignments.rows ++ rows := by
  obtain ⟨assignments, grown, same⟩ := Option.bind_eq_some_iff.mp inserted
  obtain rfl := Option.some.inj same
  exact ⟨assignments, rfl, Table.rows_of_insertAll? grown⟩

theorem replaceMembers_cases {members : List (String × Int)}
    (replaced : replaceMembers db policyId members = some db') :
    ∃ table, db' = { db with members := table } ∧
      ∀ m ∈ table, m ∈ db.members ∨ (m.serverType, m.serverId) ∈ members := by
  obtain ⟨table, grown, same⟩ := Option.bind_eq_some_iff.mp replaced
  refine ⟨table, (Option.some.inj same).symm, ?_⟩
  intro m member
  rcases (Table.mem_of_insertAll? grown m).mp member with before | new
  · exact Or.inl ((Table.mem_deleteWhere _ _ _).mp before).1
  · obtain ⟨index, inside, rfl⟩ := List.mem_mapIdx.mp new
    exact Or.inr (List.getElem_mem inside)

/-- A membership that names a node of a known kind. -/
def MemberRow.Known (m : MemberRow) : Prop := m.serverType ∈ managedServerTypes ∧ 0 < m.serverId

theorem normalizePolicyMembers_known (lib : EntryLibrary) {values : List MemberRequest}
    {members : List (String × Int)} (normalized : normalizePolicyMembers lib values = .ok members) :
    ∀ m ∈ members, m.1 ∈ managedServerTypes ∧ 0 < m.2 := by
  have known : ∀ (values : List MemberRequest) (seen members : List (String × Int)),
      normalizeMembersFrom lib seen values = .ok members →
      ∀ m ∈ members, m.1 ∈ managedServerTypes ∧ 0 < m.2 := by
    intro values
    induction values with
    | nil =>
      intro seen members normalized m member
      cases normalized
      cases member
    | cons value rest ih =>
      intro seen members normalized m member
      rw [normalizeMembersFrom] at normalized
      simp only [bind_eq_ok, ensure_eq_ok, exists_const] at normalized
      obtain ⟨valid, normalized⟩ := normalized
      split at normalized
      · exact ih _ _ normalized m member
      · simp only [bind_eq_ok, pure_eq_ok] at normalized
        obtain ⟨others, normalized, rfl⟩ := normalized
        rcases List.mem_cons.mp member with rfl | later
        · exact valid
        · exact ih _ _ normalized m later
  exact known values [] members normalized

section

variable (lib : EntryLibrary)

theorem saveClientEntryUserPolicy_cases {req : PolicySaveRequest} {newId : Int}
    (returned : saveClientEntryUserPolicy lib db req newId now = .ok db') :
    ∃ prepared conditions members,
      normalizeClientEntryUserPolicySaveRequest lib req = .ok prepared ∧
      encodeConditions lib.toStandardLibrary prepared.conditions = .ok conditions ∧
      (∀ m ∈ members, m ∈ db.members ∨ (m.serverType, m.serverId) ∈ prepared.members) ∧
      ((∃ policies, 0 < newId ∧ (∀ q ∈ db.policies, q.id ≠ newId) ∧
          db' = { db with policies, members } ∧ ∀ q, q ∈ policies ↔ q ∈ db.policies ∨
            q = newPolicy prepared conditions newId (nextClientEntryRuleSort db) now) ∨
        ∃ policyId, collectionForbids db (.policy policyId) (leavesCollection prepared) = false ∧
          db' = { db with
            members
            policies := db.policies.updateWhere
              (fun p => p.id = policyId && p.mode = .standard)
              (rewritten prepared conditions now)
              fun _ => ⟨rfl, rfl⟩ }) := by
  simp only [saveClientEntryUserPolicy, bind_eq_ok, require_eq_ok] at returned
  obtain ⟨prepared, normalized, _, -, _, -, _, -, conditions, encoded, ⟨policyId, written⟩,
    saved, returned⟩ := returned
  obtain ⟨members, rfl, listed⟩ := replaceMembers_cases returned
  unfold writePolicy at saved
  split at saved
  · simp only [bind_eq_ok, require_eq_ok, pure_eq_ok, Prod.mk.injEq] at saved
    obtain ⟨inserted, statement, rfl, rfl⟩ := saved
    obtain ⟨positive, fresh, policies, rfl, rows⟩ := insertPolicy_cases statement
    exact ⟨prepared, conditions, members, normalized, encoded, listed,
      Or.inl ⟨policies, positive, fresh, rfl, rows⟩⟩
  next id _ =>
    simp only [bind_eq_ok, ensure_eq_ok, exists_const, pure_eq_ok, Prod.mk.injEq] at saved
    obtain ⟨-, _, -, ⟨-, allowed⟩, rfl, rfl⟩ := saved
    exact ⟨prepared, conditions, members, normalized, encoded, listed, Or.inr ⟨id, allowed, rfl⟩⟩

theorem flag_cases {value : Option Int} {default result : Int} {e : String}
    (valid : flag value default e = .ok result) (zeroOrOne : default = 0 ∨ default = 1) :
    result = 0 ∨ result = 1 := by
  unfold flag at valid
  split at valid
  · cases valid
    exact zeroOrOne
  · simp only [bind_eq_ok, ensure_eq_ok, exists_const, pure_eq_ok] at valid
    obtain ⟨allowed, rfl⟩ := valid
    exact allowed

theorem prepared_sound {req : PolicySaveRequest} {prepared : PreparedPolicy}
    (normalized : normalizeClientEntryUserPolicySaveRequest lib req = .ok prepared) :
    (prepared.enabled = 0 ∨ prepared.enabled = 1) ∧
      (∃ values, normalizeConditions lib.toStandardLibrary values = .ok prepared.conditions) ∧
      ∀ m ∈ prepared.members, m.1 ∈ managedServerTypes ∧ 0 < m.2 := by
  simp only [normalizeClientEntryUserPolicySaveRequest, bind_eq_ok, ensure_eq_ok, exists_const,
    pure_eq_ok] at normalized
  obtain ⟨-, -, -, action, -, ⟨host, resolve⟩, -, conditions, normal, nodes, -, members, known, -,
    enabled, valid, rfl⟩ := normalized
  exact ⟨flag_cases valid (Or.inr rfl), ⟨req.conditions, normal⟩,
    normalizePolicyMembers_known lib known⟩

end

theorem normalizeHosts_shown (lib : EntryLibrary) {valueA valueB hostA hostB : String}
    (accepted : normalizeClientEntryUserPolicySplitHosts lib valueA valueB = .ok (hostA, hostB)) :
    Shown hostA ∧ Shown hostB := by
  simp only [normalizeClientEntryUserPolicySplitHosts, bind_eq_ok, mapError_eq_ok, ensure_eq_ok,
    exists_const, pure_eq_ok, Prod.mk.injEq] at accepted
  obtain ⟨a, acceptedA, b, acceptedB, -, rfl, rfl⟩ := accepted
  exact ⟨normalizeHost_shown lib acceptedA, normalizeHost_shown lib acceptedB⟩

theorem leafHosts_shown (lib : EntryLibrary) {useBackupIPPool : Bool} {valueA valueB : String}
    {requested : Option (String × String)} {hostA hostB : String}
    (first : requestedHosts lib useBackupIPPool valueA valueB = .ok requested)
    (chosen : leafHosts requested pool = .ok (hostA, hostB)) : Shown hostA ∧ Shown hostB := by
  unfold leafHosts at chosen
  split at chosen
  next hosts =>
    unfold requestedHosts at first
    split at first
    · cases first
    · obtain ⟨normal, accepted, same⟩ := (map_eq_ok _ _ _).mp first
      obtain rfl := Option.some.inj same
      cases chosen
      exact normalizeHosts_shown lib accepted
  · obtain ⟨claimed, -, rest⟩ := (bind_eq_ok _ _ _).mp chosen
    split at rest
    next a b =>
      cases rest
      exact ⟨a.shown, b.shown⟩
    · cases rest

theorem preparedSplit_shown (lib : EntryLibrary) {req : SplitCreateRequest}
    {prepared : PreparedSplit}
    (normalized : normalizeClientEntryUserPolicySplitCreateRequest lib req = .ok prepared) :
    Shown prepared.entryHostA ∧
      (req.historySingleGroup = false → Shown prepared.entryHostB) ∧
      (prepared.enabled = 0 ∨ prepared.enabled = 1) ∧
      ∀ m ∈ prepared.members, m.1 ∈ managedServerTypes ∧ 0 < m.2 := by
  simp only [normalizeClientEntryUserPolicySplitCreateRequest, bind_eq_ok, ensure_eq_ok,
    exists_const, pure_eq_ok] at normalized
  obtain ⟨-, -, -, minutes, -, ⟨hostA, hostB⟩, hosts, resolve, -, enabled, valid, members, known, -,
    rfl⟩ := normalized
  refine ⟨?_, ?_, flag_cases valid (Or.inr rfl), normalizePolicyMembers_known lib known⟩
  · unfold firstHosts at hosts
    split at hosts
    · simp only [bind_eq_ok, ensure_eq_ok, exists_const, pure_eq_ok, Prod.mk.injEq] at hosts
      obtain ⟨-, host, accepted, rfl, -⟩ := hosts
      exact normalizeHost_shown lib accepted
    · exact (normalizeHosts_shown lib hosts).1
  · intro two
    unfold firstHosts at hosts
    rw [two] at hosts
    exact (normalizeHosts_shown lib hosts).2

def firstGroups (prepared : PreparedSplit) (single : Bool) (new : NewGroups)
    (policyId position now : Int) : List GroupRow :=
  newGroup new.groupA policyId none "A" "A" prepared.entryHostA clientEntryRuleSortStep position now
      none ::
    if single then []
    else [newGroup new.groupB policyId none "B" "B" prepared.entryHostB
      (2 * clientEntryRuleSortStep) (position + clientEntryRuleSortStep) now none]

theorem mem_halves {users : List Int} {a : AssignmentRow} (member : a ∈ halves policyId users new) :
    a.policyId = policyId ∧ (a.groupId = new.groupA ∨ a.groupId = new.groupB) := by
  obtain ⟨userId, -, rfl⟩ := List.mem_map.mp member
  dsimp only
  split
  · exact ⟨rfl, Or.inl rfl⟩
  · exact ⟨rfl, Or.inr rfl⟩

theorem fillSplit_cases {prepared : PreparedSplit} {single : Bool} {users : List Int}
    {nextSort : Int}
    (filled : fillSplit db policyId prepared single users new nextSort now = .ok db') :
    ∃ groups assignments rows,
      Added db.groups (firstGroups prepared single new policyId nextSort now) groups ∧
      assignments.rows = db.assignments.rows ++ rows ∧
      (∀ a ∈ rows, a.policyId = policyId ∧
        ∃ g ∈ firstGroups prepared single new policyId nextSort now, g.id = a.groupId) ∧
      db' = { db with groups, assignments } := by
  simp only [fillSplit, bind_eq_ok, require_eq_ok] at filled
  obtain ⟨withA, first, filled⟩ := filled
  split at filled
  next one =>
    simp only [bind_eq_ok, require_eq_ok, ensure_eq_ok, exists_const, pure_eq_ok] at filled
    obtain ⟨_, inserted, -, rfl⟩ := filled
    obtain ⟨groups, added, rfl⟩ := insertGroup_added first
    obtain ⟨assignments, rfl, rows⟩ := insertAssignments_cases inserted
    refine ⟨groups, assignments, _, ?_, rows, ?_, rfl⟩
    · rw [firstGroups, if_pos one]
      exact added
    · intro a member
      obtain ⟨userId, -, rfl⟩ := List.mem_map.mp member
      exact ⟨rfl, _, List.mem_cons_self, rfl⟩
  next two =>
    simp only [bind_eq_ok, require_eq_ok, pure_eq_ok] at filled
    obtain ⟨withB, second, _, inserted, _, -, rfl⟩ := filled
    obtain ⟨groups, added, rfl⟩ := insertGroups_added first second
    obtain ⟨assignments, rfl, rows⟩ := insertAssignments_cases inserted
    refine ⟨groups, assignments, _, ?_, rows, ?_, rfl⟩
    · rw [firstGroups, if_neg two]
      exact added
    · intro a member
      obtain ⟨policy, inA | inB⟩ := mem_halves member
      · exact ⟨policy, _, List.mem_cons_self, inA.symm⟩
      · refine ⟨policy, newGroup new.groupB policyId none "B" "B" prepared.entryHostB
          (2 * clientEntryRuleSortStep) (nextSort + clientEntryRuleSortStep) now none, ?_, inB.symm⟩
        rw [firstGroups, if_neg two]
        exact List.mem_cons_of_mem _ List.mem_cons_self

theorem createClientEntryUserPolicySplit_cases (lib : EntryLibrary) {req : SplitCreateRequest}
    {newId : Int} (returned : createClientEntryUserPolicySplit lib db req newId new now = .ok db') :
    ∃ prepared policies groups assignments members rows,
      normalizeClientEntryUserPolicySplitCreateRequest lib req = .ok prepared ∧
      0 < newId ∧ (∀ q ∈ db.policies, q.id ≠ newId) ∧
      (∀ q, q ∈ policies ↔ q ∈ db.policies ∨
        q = newSplitPolicy prepared newId (nextClientEntryRuleSort db) now) ∧
      Added db.groups (firstGroups prepared req.historySingleGroup new newId
        (nextClientEntryRuleSort db) now) groups ∧
      assignments.rows = db.assignments.rows ++ rows ∧
      (∀ a ∈ rows, a.policyId = newId ∧
        ∃ g ∈ firstGroups prepared req.historySingleGroup new newId
          (nextClientEntryRuleSort db) now, g.id = a.groupId) ∧
      (∀ m ∈ members, m ∈ db.members ∨ (m.serverType, m.serverId) ∈ prepared.members) ∧
      db' = { db with policies, groups, assignments, members } := by
  simp only [createClientEntryUserPolicySplit, bind_eq_ok, ensure_eq_ok, exists_const,
    require_eq_ok] at returned
  obtain ⟨-, prepared, normalized, users, -, _, -, _, inserted, _, replaced, filled⟩ := returned
  obtain ⟨positive, fresh, policies, rfl, listed⟩ := insertPolicy_cases inserted
  obtain ⟨members, rfl, known⟩ := replaceMembers_cases replaced
  obtain ⟨groups, assignments, rows, added, appended, theirs, rfl⟩ := fillSplit_cases filled
  exact ⟨prepared, policies, groups, assignments, members, rows, normalized, positive, fresh,
    listed, added, appended, theirs, known, rfl⟩

def convertedGroups (policy : PolicyRow) (hostA hostB : String) (new : NewGroups) (now : Int) :
    List GroupRow :=
  [newGroup new.groupA policy.id none "A" "A" hostA clientEntryRuleSortStep policy.sort now none,
    newGroup new.groupB policy.id none "B" "B" hostB (2 * clientEntryRuleSortStep)
      (policy.sort + clientEntryRuleSortStep) now none]

def converted (now : Int) (p : PolicyRow) : PolicyRow :=
  { p with mode := .split, entryHost := "", extraNodes := [], updatedAt := now }

theorem convertClientEntryUserPolicyToSplit_cases (lib : EntryLibrary) {req : SplitConvertRequest}
    (returned : convertClientEntryUserPolicyToSplit lib db req pool new now = .ok db') :
    ∃ policy hostA hostB shifted groups assignments users,
      policy ∈ db.policies ∧ policy.mode = .standard ∧ policy.action = .override ∧
      Shown hostA ∧ Shown hostB ∧
      shiftVisibleSortsAfter db policy.sort clientEntryRuleSortStep = some shifted ∧
      Added shifted.groups (convertedGroups policy hostA hostB new now) groups ∧
      assignments.rows = shifted.assignments.rows ++ halves policy.id users new ∧
      db' = { detachClientEntryCollectionMembers { shifted with groups, assignments }
          (itemOfPolicy { shifted with groups, assignments } policy.id) with
        policies := shifted.policies.updateWhere
          (fun p => p.id = policy.id && p.mode = .standard) (converted now)
          fun _ => ⟨rfl, rfl⟩ } := by
  simp only [convertClientEntryUserPolicyToSplit, bind_eq_ok, ensure_eq_ok, exists_const,
    require_eq_ok, pure_eq_ok] at returned
  obtain ⟨-, requested, asked, policy, found, override, _, -, ⟨minimum, maximum⟩, -, -,
    ⟨hostA, hostB⟩, hosts, shifted, shift, withA, first, withB, second, filled, inserted, _, -,
    rfl⟩ := returned
  obtain ⟨found, standard⟩ := Option.filter_eq_some_iff.mp found
  obtain ⟨groups, added, rfl⟩ := insertGroups_added first second
  obtain ⟨assignments, rfl, rows⟩ := insertAssignments_cases inserted
  obtain ⟨shownA, shownB⟩ := leafHosts_shown lib asked hosts
  exact ⟨policy, hostA, hostB, shifted, groups, assignments, _, Table.mem_of_find? found,
    of_decide_eq_true standard, override, shownA, shownB, shift, added, rows, rfl⟩

def dividedGroups (leaf : GroupRow) (position resolve : Int) (children : Children) (now : Int) :
    List GroupRow :=
  [newGroup children.new.groupA leaf.policyId (some leaf.id) children.nameA
      (children.path ++ ".1") children.hostA clientEntryRuleSortStep position now (some resolve),
    newGroup children.new.groupB leaf.policyId (some leaf.id) children.nameB
      (children.path ++ ".2") children.hostB (2 * clientEntryRuleSortStep)
      (position + clientEntryRuleSortStep) now (some resolve)]

/-- A leaf was divided, by hand or by the worker. -/
structure Division (db : RuleBase) (leaf : GroupRow) (position resolve : Int)
    (children : Children) : Prop where
  listed : leaf ∈ db.groups
  split : ∃ p ∈ db.policies, p.id = leaf.policyId ∧ p.mode = .split
  isLeaf : isLeaf db.groups leaf.id = true
  enough : 2 ≤ (usersOf db leaf.policyId leaf.id).length
  place : leaf.globalSort = some position
  hostA : Shown children.hostA
  hostB : Shown children.hostB
  path : children.path = parentPath leaf

theorem divideLeaf_cases {leaf : GroupRow} {position resolve : Int} {children : Children}
    (divided : divideLeaf db leaf position resolve children now = some db') :
    ∃ shifted groups,
      shiftVisibleSortsAfter db position clientEntryRuleSortStep = some shifted ∧
      Added shifted.groups (dividedGroups leaf position resolve children now) groups ∧
      db' = { detachClientEntryCollectionMembers
          (reassign { shifted with groups } leaf.policyId leaf.id children.new)
          (fun item => item = .splitGroup leaf.id) with
        groups := groups.updateWhere
          (fun g => g.id = leaf.id)
          (fun g => { g with entryHost := "", globalSort := none, updatedAt := now })
          fun _ => ⟨rfl, rfl⟩
        policies := shifted.policies.updateWhere
          (fun p => p.id = leaf.policyId)
          (fun p => { p with updatedAt := now })
          fun _ => ⟨rfl, rfl⟩ } := by
  obtain ⟨shifted, shift, divided⟩ := Option.bind_eq_some_iff.mp divided
  obtain ⟨withA, first, divided⟩ := Option.bind_eq_some_iff.mp divided
  obtain ⟨withB, second, divided⟩ := Option.bind_eq_some_iff.mp divided
  obtain ⟨groups, added, rfl⟩ := insertGroups_added first second
  exact ⟨shifted, groups, shift, added, (Option.some.inj divided).symm⟩

theorem splitClientEntryUserPolicyGroup_cases (lib : EntryLibrary) {req : GroupSplitRequest}
    (returned : splitClientEntryUserPolicyGroup lib db req pool new now = .ok db') :
    ∃ leaf position resolve children, Division db leaf position resolve children ∧
      leaf.policyId = req.policyId ∧ leaf.id = req.groupId ∧ children.new = new ∧
      divideLeaf db leaf position resolve children now = some db' := by
  simp only [splitClientEntryUserPolicyGroup, bind_eq_ok, ensure_eq_ok, exists_const,
    require_eq_ok] at returned
  obtain ⟨-, requested, asked, leaf, found, policy, -, enough, position, place, -,
    ⟨hostA, hostB⟩, hosts, -, divided⟩ := returned
  obtain ⟨listed, id, policyId, split, leafy⟩ := leaf?_eq_some.mp found
  obtain ⟨shownA, shownB⟩ := leafHosts_shown lib asked hosts
  rw [← id, ← policyId] at enough
  rw [← policyId] at split
  rw [← id] at leafy
  exact ⟨leaf, position, _, _, ⟨listed, split, leafy, enough, place, shownA, shownB, rfl⟩,
    policyId, id, rfl, divided⟩

theorem processNextClientEntryAutoSplit_cases (lib : EntryLibrary) {operation : AutoSplitOperation}
    (returned : processNextClientEntryAutoSplit lib db operation pool new now = .ok db') :
    db' = db ∨ ∃ leaf position resolve children, Division db leaf position resolve children ∧
      leaf.policyId = operation.policyId ∧ leaf.id = operation.sourceGroupId ∧
      children.new = new ∧
      divideLeaf db leaf position resolve children now = some db' := by
  unfold processNextClientEntryAutoSplit at returned
  split at returned
  · cases returned
    exact Or.inl rfl
  next leaf found =>
    split at returned
    next policy position a b _ place =>
      split at returned
      · cases returned
        exact Or.inl rfl
      next going =>
        split at returned
        · cases returned
        · dsimp only at returned
          split at returned
          · cases returned
            exact Or.inl rfl
          · rw [require_eq_ok] at returned
            obtain ⟨listed, id, policyId, split, leafy⟩ := leaf?_eq_some.mp found
            have enough : 2 ≤ (usersOf db operation.policyId operation.sourceGroupId).length := by
              omega
            rw [← id, ← policyId] at enough
            rw [← policyId] at split
            rw [← id] at leafy
            exact Or.inr ⟨leaf, position, _, _,
              ⟨listed, split, leafy, enough, place, a.shown, b.shown, rfl⟩, policyId, id, rfl,
              returned⟩
    · cases returned
      exact Or.inl rfl

structure PolicyRow.SameEntry (p q : PolicyRow) : Prop where
  id : q.id = p.id
  sort : q.sort = p.sort
  mode : q.mode = p.mode
  action : q.action = p.action
  conditions : q.conditions = p.conditions
  entryHost : q.entryHost = p.entryHost
  resolveEntryHost : q.resolveEntryHost = p.resolveEntryHost
  enabled : q.enabled = p.enabled ∨ q.enabled = 0 ∨ q.enabled = 1

theorem writeShared_cases {shared : Option (Int × String × List (String × Int))}
    (valid : ∀ settings ∈ shared, (settings.1 = 0 ∨ settings.1 = 1) ∧
      ∀ m ∈ settings.2.2, m.1 ∈ managedServerTypes ∧ 0 < m.2)
    (written : writeShared db policyId now shared = some db') :
    ∃ policies members f, policies.rows = db.policies.rows.map f ∧
      (∀ p : PolicyRow, p.SameEntry (f p)) ∧ (∀ m ∈ members, m ∈ db.members ∨ m.Known) ∧
      db' = { db with policies, members } := by
  cases shared with
  | none =>
    obtain rfl := Option.some.inj written
    refine ⟨_, db.members, fun p => if p.id = policyId && p.mode = .split then
      { p with updatedAt := now } else p, rfl, ?_, fun _ member => Or.inl member, rfl⟩
    intro p
    dsimp only
    split
    · exact ⟨rfl, rfl, rfl, rfl, rfl, rfl, rfl, Or.inl rfl⟩
    · exact ⟨rfl, rfl, rfl, rfl, rfl, rfl, rfl, Or.inl rfl⟩
  | some settings =>
    obtain ⟨enabled, remarks, entries⟩ := settings
    obtain ⟨members, rfl, listed⟩ := replaceMembers_cases written
    obtain ⟨zeroOrOne, known⟩ := valid _ rfl
    refine ⟨_, members, fun p => if p.id = policyId && p.mode = .split then
      { p with enabled, remarks, updatedAt := now } else p, rfl, ?_, ?_, rfl⟩
    · intro p
      dsimp only
      split
      · exact ⟨rfl, rfl, rfl, rfl, rfl, rfl, rfl, Or.inr zeroOrOne⟩
      · exact ⟨rfl, rfl, rfl, rfl, rfl, rfl, rfl, Or.inl rfl⟩
    · intro m member
      exact (listed m member).imp_right (known (m.serverType, m.serverId))

theorem sharedSettings_cases (lib : EntryLibrary) {req : GroupHostUpdateRequest}
    {shared : Option (Int × String × List (String × Int))}
    (prepared : sharedSettings lib req = .ok shared) :
    ∀ settings ∈ shared, (settings.1 = 0 ∨ settings.1 = 1) ∧
      ∀ m ∈ settings.2.2, m.1 ∈ managedServerTypes ∧ 0 < m.2 := by
  intro settings chosen
  unfold sharedSettings at prepared
  split at prepared
  · simp only [bind_eq_ok, require_eq_ok, ensure_eq_ok, exists_const, pure_eq_ok] at prepared
    obtain ⟨enabled, given, -, members, known, -, rfl⟩ := prepared
    obtain rfl := Option.some.inj chosen
    have zeroOrOne := (Option.filter_eq_some_iff.mp given).2
    exact ⟨by simpa using zeroOrOne, normalizePolicyMembers_known lib known⟩
  · cases prepared
    cases chosen

theorem updateClientEntryUserPolicySplitGroupHost_cases (lib : EntryLibrary)
    {req : GroupHostUpdateRequest}
    (returned : updateClientEntryUserPolicySplitGroupHost lib db req now = .ok db') :
    ∃ leaf name host policies members f,
      leaf ∈ db.groups ∧ leaf.id = req.groupId ∧ isLeaf db.groups leaf.id = true ∧ Shown host ∧
      collectionForbids db (.splitGroup leaf.id)
        (leafLeavesCollection host req.resolveEntryHost) = false ∧
      policies.rows = db.policies.rows.map f ∧ (∀ p : PolicyRow, p.SameEntry (f p)) ∧
      (∀ m ∈ members, m ∈ db.members ∨ m.Known) ∧
      db' = { db with
        policies
        members
        groups := db.groups.updateWhere
          (fun g => g.id = leaf.id)
          (rewrittenLeaf name host req.resolveEntryHost now)
          fun _ => ⟨rfl, rfl⟩ } := by
  simp only [updateClientEntryUserPolicySplitGroupHost, bind_eq_ok, mapError_eq_ok, ensure_eq_ok,
    exists_const, require_eq_ok] at returned
  obtain ⟨-, -, -, host, accepted, -, shared, prepared, _, -, ⟨isOne, allowed⟩, written⟩ := returned
  obtain ⟨leaf, found⟩ := Option.isSome_iff_exists.mp isOne
  obtain ⟨listed, id, -, -, leafy⟩ := leaf?_eq_some.mp found
  obtain ⟨policies, members, f, rows, same, known, rfl⟩ :=
    writeShared_cases (sharedSettings_cases lib prepared) written
  rw [← id] at leafy allowed
  refine ⟨leaf, trimSpace req.name, host, policies, members, f, listed, id, leafy,
    normalizeHost_shown lib accepted, allowed, rows, same, known, ?_⟩
  simp only [id]

end

end ForestPanel.ClientEntry
