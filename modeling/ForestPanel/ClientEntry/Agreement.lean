import ForestPanel.ClientEntry.Delivery
import ForestPanel.ClientEntry.Readable

/-!
# The simulation agrees with delivery

Both choose among the rules that are eligible for the user and the server: enabled, with
the server among their members, with conditions that match, and with a leaf for the user
when they are split. Both pick the eligible rule at the first position, and read the same
entry from it, so they agree wherever the tree of every split rule is intact.
-/
namespace ForestPanel.ClientEntry

open FirstMatch Outcome Relational

variable {p : PolicyRow} {policyId : Int} {g : GroupRow} {row : JoinedRow} {l : LoadedPolicy}
  {done : List JoinedRow} {loaded : List LoadedPolicy}

section

variable (lib : EntryLibrary)

/-! ## Text -/

private theorem trimSpace_managed :
    ∀ kind ∈ managedServerTypes, trimSpace kind = kind := by decide

private theorem ascii_managed :
    ∀ kind ∈ managedServerTypes, ∀ c ∈ kind.toList, c.toNat < 128 ∧ c.toLower = c := by decide

theorem lower_trimSpace_managed {kind : String} (known : kind ∈ managedServerTypes) :
    lib.lower (trimSpace kind) = kind := by
  rw [trimSpace_managed kind known, lib.lower_word (ascii_managed kind known)]

theorem equalFold_managed {a b : String} (left : a ∈ managedServerTypes)
    (right : b ∈ managedServerTypes) : lib.equalFold (trimSpace a) b = true ↔ a = b := by
  have lowerB : lib.lower b = b := by
    have same := congrArg lib.lower (lower_trimSpace_managed lib right)
    rwa [lib.lower_lower, lower_trimSpace_managed lib right, eq_comm] at same
  rw [EntryLibrary.equalFold, decide_eq_true_eq, lower_trimSpace_managed lib left, lowerB]

theorem matchEmail_lower (c : Condition) (email : String) :
    matchEmail lib.toStandardLibrary c (lib.lower (trimSpace email)) =
      matchEmail lib.toStandardLibrary c email := by
  rw [matchEmail, matchEmail, lib.lower_trimSpace_again]

theorem matchAll_subjects (conditions : List Condition) (user : UserRow) (ua : String) (now : Int) :
    matchAll lib.toStandardLibrary conditions (simulationSubject lib user ua now) =
      matchAll lib.toStandardLibrary conditions (subscriptionSubject user ua now) := by
  have same : ∀ c, matchCondition lib.toStandardLibrary c (simulationSubject lib user ua now) =
      matchCondition lib.toStandardLibrary c (subscriptionSubject user ua now) := by
    intro c
    unfold matchCondition
    split
    case h_2 => exact matchEmail_lower lib c user.email
    all_goals rfl
  rw [matchAll, matchAll, funext same]

/-! ## Eligible rules -/

def conditionsOf (p : PolicyRow) : List Condition :=
  match decodeConditions lib.toStandardLibrary p.conditions with
  | .ok conditions => conditions
  | .error _ => []

theorem PolicyRow.Readable.decodes {lib : EntryLibrary} (readable : p.Readable lib) :
    decodeConditions lib.toStandardLibrary p.conditions = .ok (conditionsOf lib p) := by
  obtain ⟨conditions, decoded⟩ := readable.conditions
  rw [conditionsOf, decoded]

structure Eligible (db : RuleBase) (userId : Int) (subject : Subject) (target : String × Int)
    (p : PolicyRow) : Prop where
  enabled : p.enabled = 1
  member : ∃ m ∈ db.members, m.policyId = p.id ∧ (m.serverType, m.serverId) = target
  accepts : matchAll lib.toStandardLibrary (runtimeConditions p.mode (conditionsOf lib p))
    subject = true
  assigned : p.mode = .split → (assignedGroup db userId p.id).isSome = true

/-- The position of a rule for a user: that of the user's leaf, or its own. -/
def RuleBase.position (db : RuleBase) (userId : Int) (p : PolicyRow) : Int :=
  if p.mode = .split then ((assignedGroup db userId p.id).bind GroupRow.globalSort).getD p.sort
  else p.sort

/-- What a rule says to a user. -/
def RuleBase.ruling (db : RuleBase) (userId : Int) (p : PolicyRow) : Ruling :=
  ⟨p.id, p.action,
    if p.mode = .split then
      trimSpace (((assignedGroup db userId p.id).map GroupRow.entryHost).getD "")
    else trimSpace p.entryHost,
    ((assignedGroup db userId p.id).bind GroupRow.resolveEntryHost).getD p.resolveEntryHost ≠ 0⟩

/-- The ruling of the first eligible rule, by position and id. -/
def Decides (db : RuleBase) (userId : Int) (subject : Subject) (target : String × Int) :
    Option Ruling → Prop
  | none => ∀ p ∈ db.policies, ¬Eligible lib db userId subject target p
  | some ruling => ∃ p ∈ db.policies, Eligible lib db userId subject target p ∧
      ruling = db.ruling userId p ∧
      ∀ q ∈ db.policies, Eligible lib db userId subject target q →
        ByKeys (db.position userId) PolicyRow.id p q

theorem Decides.unique {db : RuleBase} {userId : Int} {subject : Subject} {target : String × Int}
    {a b : Option Ruling} (first : Decides lib db userId subject target a)
    (second : Decides lib db userId subject target b) : a = b := by
  cases a with
  | none =>
    cases b with
    | none => rfl
    | some ruling =>
      obtain ⟨p, listed, eligible, -⟩ := second
      exact absurd eligible (first p listed)
  | some ruling =>
    obtain ⟨p, listed, eligible, same, least⟩ := first
    cases b with
    | none => exact absurd eligible (second p listed)
    | some ruling' =>
      obtain ⟨q, listed', eligible', same', least'⟩ := second
      have ids := (least q listed' eligible').second_eq (least' p listed eligible)
      obtain rfl := db.policies.eq_of_key listed listed' ids
      rw [same, same']

section

variable {lib} {db : RuleBase} (tree : Tree db) {userId : Int}
include tree

theorem assignedGroup_of_assigned {groupId : Int}
    (assigned : assignmentsOf db userId policyId = some groupId) :
    ∃ g, assignedGroup db userId policyId = some g ∧ g ∈ db.groups ∧ g.id = groupId ∧
      g.policyId = policyId ∧ isLeaf db.groups g.id = true := by
  obtain ⟨a, found, rfl⟩ := Option.map_eq_some_iff.mp assigned
  obtain ⟨member, key⟩ := (Table.find?_eq_some _ _ _).mp found
  obtain ⟨g, listed, id, policy, leaf⟩ := tree.assigned a member
  have samePolicy : g.policyId = policyId := policy.trans (congrArg Prod.fst key)
  refine ⟨g, ?_, listed, id, samePolicy, leaf⟩
  rw [assignedGroup, assigned, Option.bind_eq_bind, Option.bind_some, ← id,
    db.groups.find?_key listed, Option.filter_some_pos]
  exact decide_eq_true samePolicy

theorem assignedGroup_eq_some (assigned : assignedGroup db userId policyId = some g) :
    assignmentsOf db userId policyId = some g.id ∧ g ∈ db.groups ∧ g.policyId = policyId ∧
      isLeaf db.groups g.id = true := by
  obtain ⟨groupId, given, -⟩ := Option.bind_eq_some_iff.mp assigned
  obtain ⟨h, same, listed, rfl, policy, leaf⟩ := assignedGroup_of_assigned tree given
  rw [same] at assigned
  obtain rfl := Option.some.inj assigned
  exact ⟨given, listed, policy, leaf⟩

theorem assignedGroup_standard (listed : p ∈ db.policies) (standard : p.mode = .standard) :
    assignedGroup db userId p.id = none := by
  cases assigned : assignedGroup db userId p.id with
  | none => rfl
  | some g =>
    obtain ⟨-, inside, policy, -⟩ := assignedGroup_eq_some tree assigned
    obtain ⟨q, there, id, split⟩ := tree.owner g inside
    obtain rfl := db.policies.eq_of_key there listed (id.trans policy)
    rw [standard] at split
    cases split

end

/-! ## The simulation -/

def recordOf (db : RuleBase) (p : PolicyRow) : PolicyRecord where
  id := p.id
  name := trimSpace p.name
  sort := p.sort
  mode := p.mode
  action := p.action
  conditions := conditionsOf lib p
  entryHost := trimSpace p.entryHost
  resolveEntryHost := p.resolveEntryHost
  enabled := p.enabled
  members := loadClientEntryUserPolicyMembers lib db p.id
  splitGroups := if p.mode = .split then loadClientEntryUserPolicySplitGroups db p.id else []

theorem recordOf_matches (db : RuleBase) (p : PolicyRow) :
    runtimeConditions (recordOf lib db p).mode (recordOf lib db p).conditions =
      runtimeConditions p.mode (conditionsOf lib p) := by
  rw [recordOf]

section

variable {lib} {db : RuleBase} (tree : Tree db) (readable : Readable lib db) {userId : Int}
  {subject : Subject} {target : String × Int}

include readable in
theorem listClientEntryUserPolicies_ok :
    listClientEntryUserPolicies lib db = .ok
      ((db.policies.rows.insertionSort (ByKeys PolicyRow.sort PolicyRow.id)).map
        (recordOf lib db)) := by
  apply mapM_ok
  intro p member
  have listed : p ∈ db.policies := (List.perm_insertionSort _ _).subset member
  rw [policyRecord, (readable.policies p listed).decodes]
  rfl

include readable in
theorem mem_loadClientEntryUserPolicyMembers :
    target ∈ loadClientEntryUserPolicyMembers lib db policyId ↔
      ∃ m ∈ db.members, m.policyId = policyId ∧ (m.serverType, m.serverId) = target := by
  have inside : ∀ m, m ∈ memberRows db policyId ↔ m ∈ db.members ∧ m.policyId = policyId := by
    intro m
    rw [memberRows, (List.perm_insertionSort _ _).mem_iff, List.mem_filter, decide_eq_true_eq]
    rfl
  rw [loadClientEntryUserPolicyMembers, List.mem_filter, List.mem_map]
  constructor
  · rintro ⟨⟨m, member, rfl⟩, -⟩
    obtain ⟨listed, policy⟩ := (inside m).mp member
    rw [lower_trimSpace_managed lib (readable.members m listed).1]
    exact ⟨m, listed, policy, rfl⟩
  · rintro ⟨m, listed, policy, rfl⟩
    have known := readable.members m listed
    refine ⟨⟨m, (inside m).mpr ⟨listed, policy⟩, ?_⟩, ?_⟩
    · rw [lower_trimSpace_managed lib known.1]
    · have named : m.serverType ≠ "" := fun empty => absurd (empty ▸ known.1) (by decide)
      simpa [named] using known.2

include readable in
theorem clientEntrySimulationHasMember_iff (known : target.1 ∈ managedServerTypes) :
    clientEntrySimulationHasMember lib (loadClientEntryUserPolicyMembers lib db policyId) target.1
        target.2 = true ↔
      ∃ m ∈ db.members, m.policyId = policyId ∧ (m.serverType, m.serverId) = target := by
  have named : target.1 ≠ "" := fun empty => absurd (empty ▸ known) (by decide)
  rw [← mem_loadClientEntryUserPolicyMembers readable, clientEntrySimulationHasMember,
    if_neg named, List.any_eq_true]
  constructor
  · rintro ⟨m, member, alike⟩
    obtain ⟨row, listed, -, rfl⟩ := (mem_loadClientEntryUserPolicyMembers readable).mp member
    rw [Bool.and_eq_true, decide_eq_true_eq,
      equalFold_managed lib (readable.members row listed).1 known] at alike
    rwa [← Prod.ext alike.1 alike.2]
  · intro member
    refine ⟨target, member, ?_⟩
    rw [Bool.and_eq_true, decide_eq_true_eq, equalFold_managed lib known known]
    exact ⟨rfl, rfl⟩

theorem find?_splitGroups (listed : g ∈ db.groups) (policy : g.policyId = policyId)
    (leaf : isLeaf db.groups g.id = true) :
    (loadClientEntryUserPolicySplitGroups db policyId).find? (fun r => r.id = g.id && r.isLeaf) =
      some (splitGroupRecord db.groups g) := by
  have inside : ∀ r, r ∈ loadClientEntryUserPolicySplitGroups db policyId ↔
      ∃ h ∈ db.groups, h.policyId = policyId ∧ splitGroupRecord db.groups h = r := by
    intro r
    rw [loadClientEntryUserPolicySplitGroups, (List.perm_insertionSort _ _).mem_iff, List.mem_map]
    simp only [List.mem_filter, decide_eq_true_eq, and_assoc]
    rfl
  cases found : (loadClientEntryUserPolicySplitGroups db policyId).find?
      (fun r => r.id = g.id && r.isLeaf) with
  | none =>
    have absent := List.find?_eq_none.mp found (splitGroupRecord db.groups g)
      ((inside _).mpr ⟨g, listed, policy, rfl⟩)
    simp [splitGroupRecord, leaf] at absent
  | some r =>
    obtain ⟨h, listed', -, rfl⟩ := (inside r).mp (List.mem_of_find?_eq_some found)
    have chosen := List.find?_some found
    rw [Bool.and_eq_true, decide_eq_true_eq] at chosen
    obtain rfl := db.groups.eq_of_key listed' listed chosen.1
    rfl

/-- A candidate that stands for a rule. -/
structure Represents (db : RuleBase) (userId : Int) (p : PolicyRow) (c : SimulationCandidate) :
    Prop where
  id : c.policy.id = p.id
  position : c.visibleSort = db.position userId p
  ruling : c.policy.ruling = db.ruling userId p

include tree in
theorem assignedCandidate_some (split : p.mode = .split)
    (assigned : assignedGroup db userId p.id = some g) :
    ∃ c, assignedCandidate (assignmentsOf db userId) (recordOf lib db p) = some c ∧
      Represents db userId p c := by
  obtain ⟨given, listed, policy, leaf⟩ := assignedGroup_eq_some tree assigned
  have groups : (recordOf lib db p).splitGroups =
      loadClientEntryUserPolicySplitGroups db p.id := if_pos split
  have found := find?_splitGroups listed policy leaf
  let record : PolicyRecord := { recordOf lib db p with
    name := trimSpace g.name
    entryHost := trimSpace (trimSpace g.entryHost)
    resolveEntryHost := g.resolveEntryHost.getD p.resolveEntryHost
    splitGroups := [] }
  refine ⟨⟨record, g.globalSort.getD p.sort⟩, ?_, rfl, ?_, ?_⟩
  · rw [assignedCandidate, show assignmentsOf db userId (recordOf lib db p).id = some g.id from given,
      Option.bind_eq_bind, Option.bind_some, groups, found]
    rfl
  · rw [RuleBase.position, if_pos split, assigned]
    rfl
  · rw [RuleBase.ruling, if_pos split, assigned]
    simp only [PolicyRecord.ruling, record, trimSpace_trimSpace, recordOf, Option.map_some,
      Option.getD_some, Option.bind_some]

theorem assignedCandidate_none (assigned : assignmentsOf db userId p.id = none) :
    assignedCandidate (assignmentsOf db userId) (recordOf lib db p) = none := by
  rw [assignedCandidate, show assignmentsOf db userId (recordOf lib db p).id = none from assigned]
  rfl

variable (lib) in
def Considers (db : RuleBase) (userId : Int) (subject : Subject) (target : String × Int)
    (p : PolicyRow) : Option SimulationCandidate → Prop
  | none => ¬Eligible lib db userId subject target p
  | some c => Eligible lib db userId subject target p ∧ Represents db userId p c

include tree readable in
theorem simulationCandidate_considers (known : target.1 ∈ managedServerTypes)
    (listed : p ∈ db.policies) :
    Considers lib db userId subject target p (simulationCandidate lib (assignmentsOf db userId)
      subject target.1 target.2 (recordOf lib db p)) := by
  have hasMember : clientEntrySimulationHasMember lib (recordOf lib db p).members target.1
      target.2 = true ↔
        ∃ m ∈ db.members, m.policyId = p.id ∧ (m.serverType, m.serverId) = target :=
    clientEntrySimulationHasMember_iff readable known
  rw [simulationCandidate, recordOf_matches]
  split
  next refused =>
    rintro ⟨enabled, member, -, -⟩
    rcases refused with off | missing
    · rw [show (recordOf lib db p).enabled = p.enabled from rfl, enabled] at off
      cases off
    · have found := hasMember.mpr member
      rw [missing] at found
      cases found
  next going =>
    rw [not_or, Bool.not_eq_false] at going
    have enabled : p.enabled = 1 := (readable.policies p listed).enabled.resolve_left going.1
    have member := hasMember.mp going.2
    split
    next rejects =>
      intro eligible
      rw [eligible.accepts] at rejects
      cases rejects
    next accepts =>
      rw [Bool.not_eq_false] at accepts
      cases mode : p.mode with
      | standard =>
        have unassigned : assignedGroup db userId p.id = none :=
          assignedGroup_standard tree listed mode
        rw [show (recordOf lib db p).mode = .standard from mode]
        refine ⟨⟨enabled, member, accepts, fun split => ?_⟩, rfl, ?_, ?_⟩
        · rw [mode] at split
          cases split
        · rw [RuleBase.position, if_neg (by simp [mode])]
          rfl
        · rw [RuleBase.ruling, if_neg (by simp [mode]), unassigned]
          rfl
      | split =>
        rw [show (recordOf lib db p).mode = .split from mode]
        cases given : assignmentsOf db userId p.id with
        | none =>
          dsimp only
          rw [assignedCandidate_none given]
          rintro ⟨-, -, -, assigned⟩
          obtain ⟨g, same⟩ := Option.isSome_iff_exists.mp (assigned mode)
          obtain ⟨there, -⟩ := assignedGroup_eq_some tree same
          rw [given] at there
          cases there
        | some groupId =>
          obtain ⟨g, assigned, -⟩ := assignedGroup_of_assigned tree given
          obtain ⟨c, candidate, represents⟩ :=
            assignedCandidate_some tree mode assigned
          dsimp only
          rw [candidate]
          exact ⟨⟨enabled, member, accepts, fun _ => by rw [assigned]; rfl⟩, represents⟩

include tree readable in
theorem selectClientEntryUserPolicySimulation_decides (known : target.1 ∈ managedServerTypes)
    {records : List PolicyRecord} (list : listClientEntryUserPolicies lib db = .ok records) :
    Decides lib db userId subject target
      ((selectClientEntryUserPolicySimulation lib records (assignmentsOf db userId) subject
        target.1 target.2).map PolicyRecord.ruling) := by
  rw [listClientEntryUserPolicies_ok readable] at list
  cases list
  set candidates := List.filterMap
    (simulationCandidate lib (assignmentsOf db userId) subject target.1 target.2)
    ((db.policies.rows.insertionSort (ByKeys PolicyRow.sort PolicyRow.id)).map
      (recordOf lib db)) with candidatesEq
  -- the candidates stand for the eligible rules
  have considers : ∀ p ∈ db.policies, Considers lib db userId subject target p
      (simulationCandidate lib (assignmentsOf db userId) subject target.1 target.2
        (recordOf lib db p)) :=
    fun p listed => simulationCandidate_considers tree readable known listed
  have sound : ∀ c ∈ candidates, ∃ p ∈ db.policies,
      Eligible lib db userId subject target p ∧ Represents db userId p c := by
    intro c member
    obtain ⟨record, inside, chosen⟩ := List.mem_filterMap.mp member
    obtain ⟨p, sorted, rfl⟩ := List.mem_map.mp inside
    have listed : p ∈ db.policies := (List.perm_insertionSort _ _).subset sorted
    have considered := considers p listed
    rw [chosen] at considered
    exact ⟨p, listed, considered⟩
  have complete : ∀ p ∈ db.policies, Eligible lib db userId subject target p →
      ∃ c ∈ candidates, Represents db userId p c := by
    intro p listed eligible
    have considered := considers p listed
    cases chosen : simulationCandidate lib (assignmentsOf db userId) subject target.1 target.2
        (recordOf lib db p) with
    | none =>
      rw [chosen] at considered
      exact absurd eligible considered
    | some c =>
      rw [chosen] at considered
      refine ⟨c, List.mem_filterMap.mpr ⟨_, List.mem_map_of_mem ?_, chosen⟩, considered.2⟩
      exact (List.perm_insertionSort _ _).symm.subset listed
  have unfolded : selectClientEntryUserPolicySimulation lib
      ((db.policies.rows.insertionSort (ByKeys PolicyRow.sort PolicyRow.id)).map (recordOf lib db))
      (assignmentsOf db userId) subject target.1 target.2 =
        ((candidates.insertionSort (ByKeys SimulationCandidate.visibleSort
          fun c => c.policy.id)).head?.map SimulationCandidate.policy) := rfl
  rw [unfolded]
  cases first : (candidates.insertionSort (ByKeys SimulationCandidate.visibleSort
      fun c => c.policy.id)).head? with
  | none =>
    intro p listed eligible
    obtain ⟨c, member, -⟩ := complete p listed eligible
    rw [head?_insertionSort_eq_none.mp first] at member
    cases member
  | some c =>
    obtain ⟨member, least⟩ := head?_insertionSort first
    obtain ⟨p, listed, eligible, represents⟩ := sound c member
    refine ⟨p, listed, eligible, represents.ruling, ?_⟩
    intro q listed' eligible'
    obtain ⟨d, member', represents'⟩ := complete q listed' eligible'
    have before := least d member'
    rwa [ByKeys, represents.position, represents'.position, represents.id, represents'.id]
      at before

end

/-! ## The rows of the query -/

instance : Std.Total JoinedRow.Before where
  total a b := by
    simp only [JoinedRow.Before, ByKeys]
    omega

instance : IsTrans JoinedRow JoinedRow.Before where
  trans a b c ab bc := by
    simp only [JoinedRow.Before, ByKeys] at *
    omega

structure Joins (db : RuleBase) (userId : Int) (row : JoinedRow) : Prop where
  policy : row.policy ∈ db.policies
  enabled : row.policy.enabled = 1
  group : row.group = assignedGroup db userId row.policy.id
  assigned : row.policy.mode = .split → row.group.isSome = true
  member : row.member ∈ db.members
  owner : row.member.policyId = row.policy.id

theorem mem_joinedRows {db : RuleBase} {userId : Int} :
    row ∈ joinedRows db userId ↔ Joins db userId row := by
  rw [joinedRows, (List.perm_insertionSort _ _).mem_iff, List.mem_flatMap]
  simp only [List.mem_filter, decide_eq_true_eq]
  constructor
  · rintro ⟨p, ⟨listed, enabled⟩, inside⟩
    split at inside
    next => cases inside
    next going =>
      obtain ⟨m, member, rfl⟩ := List.mem_map.mp inside
      rw [List.mem_filter, decide_eq_true_eq] at member
      refine ⟨listed, enabled, rfl, ?_, member.1, member.2⟩
      intro split
      exact Option.isSome_iff_ne_none.mpr fun absent => going ⟨split, absent⟩
  · rintro ⟨listed, enabled, group, assigned, member, owner⟩
    refine ⟨row.policy, ⟨listed, enabled⟩, ?_⟩
    rw [← group, if_neg]
    · exact List.mem_map.mpr ⟨row.member, List.mem_filter.mpr ⟨member, decide_eq_true owner⟩, rfl⟩
    · rintro ⟨split, absent⟩
      have there := assigned split
      rw [absent] at there
      cases there

theorem pairwise_joinedRows (db : RuleBase) (userId : Int) :
    (joinedRows db userId).Pairwise (ByKeys JoinedRow.visibleSort JoinedRow.id) :=
  (List.pairwise_insertionSort JoinedRow.Before _).imp fun before => before.1

theorem Joins.visibleSort {db : RuleBase} {userId : Int} (joins : Joins db userId row) :
    row.visibleSort = db.position userId row.policy := by
  rw [JoinedRow.visibleSort, RuleBase.position, joins.group]

/-! ## The loop over the rows -/

def JoinedRow.target (row : JoinedRow) : String × Int :=
  (row.member.serverType, row.member.serverId)

/-- What the loop has made of a rule from the rows it has read; `row` is the first. -/
structure Loads (done : List JoinedRow) (row : JoinedRow) (l : LoadedPolicy) : Prop where
  id : l.id = row.policy.id
  mode : l.mode = row.policy.mode
  action : l.action = row.policy.action
  entryHost : l.entryHost = trimSpace row.policy.entryHost
  assignedEntryHost :
    l.assignedEntryHost = trimSpace ((row.group.map GroupRow.entryHost).getD "")
  resolveEntryHost : l.resolveEntryHost =
    decide ((row.group.bind GroupRow.resolveEntryHost).getD row.policy.resolveEntryHost ≠ 0)
  conditions : l.conditions = conditionsOf lib row.policy
  members : ∀ target, target ∈ l.members ↔ ∃ r ∈ done, r.id = row.id ∧ r.target = target

/-- The loop has loaded each rule of the rows it has read, at its first row. -/
def Loaded (done : List JoinedRow) (loaded : List LoadedPolicy) : Prop :=
  ∃ firsts : List JoinedRow, firsts.Sublist done ∧
    (∀ r ∈ done, ∃ f ∈ firsts, f.id = r.id) ∧ List.Forall₂ (Loads lib done) firsts loaded

section

variable {lib} {db : RuleBase} {userId : Int}

theorem mem_addMember {target : String × Int} (known : target.1 ∈ managedServerTypes ∧ 0 < target.2)
    (listed : ∀ m ∈ l.members, m.1 ∈ managedServerTypes) (m : String × Int) :
    m ∈ (l.addMember lib target).members ↔ m ∈ l.members ∨ m = target := by
  have named : target.1 ≠ "" := fun empty => absurd (empty ▸ known.1) (by decide)
  unfold LoadedPolicy.addMember
  split
  next => exact List.mem_append.trans (or_congr_right List.mem_singleton)
  next there =>
    have found : clientEntryPolicyHasMember lib l.members target = true := by
      by_contra absent
      exact there ⟨named, known.2, Bool.not_eq_true _ ▸ absent⟩
    obtain ⟨v, inside, alike⟩ := List.any_eq_true.mp found
    rw [Bool.and_eq_true, decide_eq_true_eq, trimSpace_managed target.1 known.1,
      equalFold_managed lib (listed v inside) known.1] at alike
    obtain rfl : v = target := Prod.ext alike.1 alike.2
    constructor
    · exact Or.inl
    · rintro (before | rfl)
      · exact before
      · exact inside

theorem loadedPolicy_ok (readable : row.policy.Readable lib) (first : ∀ r ∈ done, r.id ≠ row.id) :
    ∃ l, loadedPolicy lib row = .ok l ∧ Loads lib done row l := by
  let l : LoadedPolicy :=
    { id := row.policy.id
      mode := row.policy.mode
      action := row.policy.action
      entryHost := trimSpace row.policy.entryHost
      assignedEntryHost := trimSpace ((row.group.map GroupRow.entryHost).getD "")
      resolveEntryHost := (row.group.bind GroupRow.resolveEntryHost).getD
        row.policy.resolveEntryHost ≠ 0
      conditions := conditionsOf lib row.policy
      members := [] }
  have conditions : l.conditions = conditionsOf lib row.policy := by dsimp only [l]
  refine ⟨l, ?_, rfl, rfl, rfl, rfl, rfl, rfl, conditions, ?_⟩
  · rw [loadedPolicy, readable.decodes]
    rfl
  · intro target
    constructor
    · exact fun absent => absurd absent List.not_mem_nil
    · rintro ⟨r, before, same, -⟩
      exact absurd same (first r before)

theorem Loads.next {first : JoinedRow} (loads : Loads lib done first l)
    (known : ∀ r ∈ done ++ [row], r.target.1 ∈ managedServerTypes ∧ 0 < r.target.2) :
    Loads lib (done ++ [row]) first (if l.id = row.id then l.addMember lib row.target else l) := by
  have added : ∀ target, (∃ r ∈ done ++ [row], r.id = first.id ∧ r.target = target) ↔
      (∃ r ∈ done, r.id = first.id ∧ r.target = target) ∨
        (row.id = first.id ∧ row.target = target) := by
    intro target
    simp only [List.mem_append, List.mem_singleton, or_and_right, exists_or, exists_eq_left]
  have ids : l.id = first.id := loads.id
  split
  next same =>
    have listed : ∀ m ∈ l.members, m.1 ∈ managedServerTypes := by
      intro m member
      obtain ⟨r, before, -, rfl⟩ := (loads.members m).mp member
      exact (known r (List.mem_append_left _ before)).1
    have rowKnown := known row (List.mem_append_right _ (List.mem_singleton_self row))
    obtain ⟨others, members⟩ : (∃ ms, l.addMember lib row.target = { l with members := ms }) ∧
        ∀ m, m ∈ (l.addMember lib row.target).members ↔ m ∈ l.members ∨ m = row.target := by
      refine ⟨?_, mem_addMember rowKnown listed⟩
      unfold LoadedPolicy.addMember
      split
      · exact ⟨_, rfl⟩
      · exact ⟨l.members, rfl⟩
    obtain ⟨ms, written⟩ := others
    rw [written] at members ⊢
    refine { loads with members := ?_ }
    intro target
    rw [added, members, loads.members]
    apply or_congr_right
    constructor
    · rintro rfl
      exact ⟨same.symm.trans ids, rfl⟩
    · rintro ⟨-, rfl⟩
      rfl
  next other =>
    refine { loads with members := ?_ }
    intro target
    rw [added, loads.members]
    constructor
    · exact Or.inl
    · rintro (before | ⟨same, -⟩)
      · exact before
      · exact absurd (ids.trans same.symm) other

theorem addRow_ok (readable : row.policy.Readable lib)
    (known : ∀ r ∈ done ++ [row], r.target.1 ∈ managedServerTypes ∧ 0 < r.target.2)
    (before : Loaded lib done loaded) :
    ∃ loaded', addRow lib loaded row = .ok loaded' ∧ Loaded lib (done ++ [row]) loaded' := by
  obtain ⟨firsts, among, each, related⟩ := before
  have ids : (loaded.any fun l => l.id = row.id) = true ↔ ∃ r ∈ done, r.id = row.id := by
    rw [List.any_eq_true]
    constructor
    · rintro ⟨l, listed, same⟩
      obtain ⟨f, member, loads⟩ := related_of_mem related.flip listed
      exact ⟨f, among.subset member, loads.id.symm.trans (of_decide_eq_true same)⟩
    · rintro ⟨r, read, same⟩
      obtain ⟨f, member, sameId⟩ := each r read
      obtain ⟨l, listed, loads⟩ := related_of_mem related member
      exact ⟨l, listed, decide_eq_true (loads.id.trans (sameId.trans same))⟩
  -- after the rule is there, its first row is among the first rows
  obtain ⟨loaded', firsts', ensured, among', each', related'⟩ :
      ∃ loaded' firsts', ensureLoaded lib loaded row = .ok loaded' ∧
        firsts'.Sublist (done ++ [row]) ∧ (∀ r ∈ done ++ [row], ∃ f ∈ firsts', f.id = r.id) ∧
        List.Forall₂ (Loads lib done) firsts' loaded' := by
    by_cases there : ∃ r ∈ done, r.id = row.id
    · refine ⟨loaded, firsts, if_pos (ids.mpr there), among.trans (List.sublist_append_left _ _), ?_,
        related⟩
      intro r member
      rcases List.mem_append.mp member with read | last
      · exact each r read
      · rw [List.mem_singleton.mp last]
        obtain ⟨r', read, same⟩ := there
        obtain ⟨f, member, sameId⟩ := each r' read
        exact ⟨f, member, sameId.trans same⟩
    · have first : ∀ r ∈ done, r.id ≠ row.id := fun r read same => there ⟨r, read, same⟩
      obtain ⟨l, loads, fresh⟩ := loadedPolicy_ok readable first
      refine ⟨loaded ++ [l], firsts ++ [row], ?_, among.append (List.Sublist.refl _), ?_,
        List.rel_append related (List.Forall₂.cons fresh List.Forall₂.nil)⟩
      · rw [ensureLoaded, if_neg (fun found => there (ids.mp found)), loads]
        rfl
      · intro r member
        rcases List.mem_append.mp member with read | last
        · obtain ⟨f, inside, same⟩ := each r read
          exact ⟨f, List.mem_append_left _ inside, same⟩
        · rw [List.mem_singleton.mp last]
          exact ⟨row, List.mem_append_right _ (List.mem_singleton_self row), rfl⟩
  have rowKnown := known row (List.mem_append_right _ (List.mem_singleton_self row))
  have lowered : lib.lower (trimSpace row.member.serverType) = row.member.serverType :=
    lower_trimSpace_managed lib rowKnown.1
  refine ⟨loaded'.map fun l => if l.id = row.id then l.addMember lib row.target else l, ?_,
    firsts', among', each', ?_⟩
  · have positive : ¬row.id ≤ 0 := not_le.mpr readable.positive
    rw [addRow, if_neg positive, ensured, bind_ok, lowered]
    rfl
  · rw [List.forall₂_map_right_iff]
    exact related'.imp fun f l loads => loads.next known

theorem loadClientEntryUserPolicies_ok (readable : Readable lib db) :
    ∃ loaded, loadClientEntryUserPolicies lib db userId = .ok loaded ∧
      Loaded lib (joinedRows db userId) loaded := by
  have known : ∀ r ∈ joinedRows db userId, r.target.1 ∈ managedServerTypes ∧ 0 < r.target.2 :=
    fun r member => readable.members r.member (mem_joinedRows.mp member).member
  have round : ∀ done loaded, ∀ row ∈ joinedRows db userId,
      (∀ r ∈ done, r.target.1 ∈ managedServerTypes ∧ 0 < r.target.2) ∧ Loaded lib done loaded →
      ∃ loaded', addRow lib loaded row = .ok loaded' ∧
        (∀ r ∈ done ++ [row], r.target.1 ∈ managedServerTypes ∧ 0 < r.target.2) ∧
        Loaded lib (done ++ [row]) loaded' := by
    rintro done loaded row member ⟨knownDone, before⟩
    have knownBoth : ∀ r ∈ done ++ [row], r.target.1 ∈ managedServerTypes ∧ 0 < r.target.2 := by
      intro r inside
      rcases List.mem_append.mp inside with read | last
      · exact knownDone r read
      · rw [List.mem_singleton.mp last]
        exact known row member
    obtain ⟨loaded', returned, after⟩ :=
      addRow_ok (readable.policies _ (mem_joinedRows.mp member).policy) knownBoth before
    exact ⟨loaded', returned, knownBoth, after⟩
  have nothing : Loaded lib [] [] :=
    ⟨[], List.Sublist.refl _, fun _ absent => absurd absent List.not_mem_nil, List.Forall₂.nil⟩
  obtain ⟨loaded, returned, -, firsts, among, each, related⟩ :=
    foldlM_ok round ⟨fun _ absent => absurd absent List.not_mem_nil, nothing⟩
  rw [List.nil_append] at among each related
  refine ⟨loaded, ?_, firsts, among, each, related⟩
  -- every rule has the member of its first row
  have full : loaded.filter (fun l => l.members ≠ []) = loaded := by
    rw [List.filter_eq_self]
    intro l listed
    obtain ⟨f, first, loads⟩ := related_of_mem related.flip listed
    have member : f.target ∈ l.members :=
      (loads.members _).mpr ⟨f, among.subset first, rfl, rfl⟩
    exact decide_eq_true (List.ne_nil_of_mem member)
  rw [loadClientEntryUserPolicies, returned, bind_ok, full]
  rfl

theorem clientEntryPolicyHasMember_iff {members : List (String × Int)} {target : String × Int}
    (listed : ∀ m ∈ members, m.1 ∈ managedServerTypes) (known : target.1 ∈ managedServerTypes) :
    clientEntryPolicyHasMember lib members target = true ↔ target ∈ members := by
  rw [clientEntryPolicyHasMember, List.any_eq_true, trimSpace_managed target.1 known]
  constructor
  · rintro ⟨m, member, alike⟩
    rw [Bool.and_eq_true, decide_eq_true_eq, equalFold_managed lib (listed m member) known] at alike
    rwa [← Prod.ext alike.1 alike.2]
  · intro member
    refine ⟨target, member, ?_⟩
    rw [Bool.and_eq_true, decide_eq_true_eq, equalFold_managed lib known known]
    exact ⟨rfl, rfl⟩

variable (lib) in
/-- A rule that decides about a server where no other does before. -/
structure Delivers (db : RuleBase) (userId : Int) (subject : Subject) (target : String × Int)
    (p : PolicyRow) : Prop where
  enabled : p.enabled = 1
  member : ∃ m ∈ db.members, m.policyId = p.id ∧ (m.serverType, m.serverId) = target
  accepts : matchAll lib.toStandardLibrary (runtimeConditions p.mode (conditionsOf lib p))
    subject = true
  hosted : p.mode = .split →
    ∃ g, assignedGroup db userId p.id = some g ∧ trimSpace g.entryHost ≠ ""

theorem delivers_iff (tree : Tree db) {subject : Subject} {target : String × Int} :
    Delivers lib db userId subject target p ↔ Eligible lib db userId subject target p := by
  constructor
  · rintro ⟨enabled, member, accepts, hosted⟩
    refine ⟨enabled, member, accepts, fun split => ?_⟩
    obtain ⟨g, assigned, -⟩ := hosted split
    rw [assigned]
    rfl
  · rintro ⟨enabled, member, accepts, assigned⟩
    refine ⟨enabled, member, accepts, fun split => ?_⟩
    obtain ⟨g, same⟩ := Option.isSome_iff_exists.mp (assigned split)
    obtain ⟨-, inside, -, leaf⟩ := assignedGroup_eq_some tree same
    obtain ⟨nonempty, trimmed⟩ := (tree.leaf g inside leaf).1
    exact ⟨g, same, trimmed.symm ▸ nonempty⟩

theorem Loads.stops_iff (readable : Readable lib db) {subject : Subject} {target : String × Int}
    (known : target.1 ∈ managedServerTypes) (joins : Joins db userId row)
    (loads : Loads lib (joinedRows db userId) row l) :
    (clientEntryPolicyHasMember lib l.members target &&
      matchAll lib.toStandardLibrary (runtimeConditions l.mode l.conditions) subject &&
      (l.mode ≠ .split || l.assignedEntryHost ≠ "")) = true ↔
    Delivers lib db userId subject target row.policy := by
  have listed : ∀ m ∈ l.members, m.1 ∈ managedServerTypes := by
    intro m member
    obtain ⟨r, read, -, rfl⟩ := (loads.members m).mp member
    exact (readable.members r.member (mem_joinedRows.mp read).member).1
  have hosted : (l.mode ≠ .split || l.assignedEntryHost ≠ "") = true ↔
      (row.policy.mode = .split →
        ∃ g, assignedGroup db userId row.policy.id = some g ∧ trimSpace g.entryHost ≠ "") := by
    rw [Bool.or_eq_true, decide_eq_true_eq, decide_eq_true_eq, loads.mode,
      loads.assignedEntryHost, ← imp_iff_not_or]
    apply forall_congr'
    intro split
    obtain ⟨g, same⟩ := Option.isSome_iff_exists.mp (joins.assigned split)
    rw [← joins.group, same]
    simp
  rw [Bool.and_eq_true, Bool.and_eq_true, clientEntryPolicyHasMember_iff listed known,
    loads.members, loads.mode, loads.conditions, ← loads.mode, hosted]
  constructor
  · rintro ⟨⟨⟨r, read, same, rfl⟩, accepts⟩, entry⟩
    have other := mem_joinedRows.mp read
    exact ⟨joins.enabled, ⟨r.member, other.member, other.owner.trans same, rfl⟩,
      loads.mode ▸ accepts, entry⟩
  · rintro ⟨enabled, ⟨m, member, owner, rfl⟩, accepts, entry⟩
    refine ⟨⟨⟨⟨row.policy, row.group, m⟩, ?_, rfl, rfl⟩, loads.mode.symm ▸ accepts⟩, entry⟩
    exact mem_joinedRows.mpr
      ⟨joins.policy, enabled, joins.group, joins.assigned, member, owner⟩

theorem Loads.ruling_eq (joins : Joins db userId row) (loads : Loads lib done row l) :
    l.ruling = db.ruling userId row.policy := by
  rw [LoadedPolicy.ruling, RuleBase.ruling, loads.id, loads.mode, loads.action, loads.entryHost,
    loads.assignedEntryHost, loads.resolveEntryHost, joins.group]

theorem matchedPolicy_first (subject : Subject) (readable : Readable lib db) {target : String × Int}
    (known : target.1 ∈ managedServerTypes) (load : Loaded lib (joinedRows db userId) loaded) :
    match matchedPolicy lib subject loaded target.1 target.2 with
    | none => ∀ p ∈ db.policies, ¬Delivers lib db userId subject target p
    | some l => ∃ p ∈ db.policies, Delivers lib db userId subject target p ∧
        l.ruling = db.ruling userId p ∧
        ∀ q ∈ db.policies, Delivers lib db userId subject target q →
          ByKeys (db.position userId) PolicyRow.id p q := by
  classical
  obtain ⟨firsts, among, each, related⟩ := load
  have joins : ∀ f ∈ firsts, Joins db userId f := fun f member =>
    mem_joinedRows.mp (among.subset member)
  have sorted : firsts.Pairwise (ByKeys JoinedRow.visibleSort JoinedRow.id) :=
    (pairwise_joinedRows db userId).sublist among
  -- such a rule has rows, so it has a first row
  have reached : ∀ p ∈ db.policies, Delivers lib db userId subject target p →
      ∃ f ∈ firsts, f.policy = p := by
    rintro p listed ⟨enabled, ⟨m, member, owner, -⟩, -, hosted⟩
    have row : Joins db userId ⟨p, assignedGroup db userId p.id, m⟩ := by
      refine ⟨listed, enabled, rfl, fun split => ?_, member, owner⟩
      obtain ⟨g, assigned, -⟩ := hosted split
      exact Option.isSome_iff_exists.mpr ⟨g, assigned⟩
    obtain ⟨f, first, same⟩ := each _ (mem_joinedRows.mpr row)
    exact ⟨f, first, db.policies.eq_of_key (joins f first).policy listed same⟩
  have alike : ∀ f ∈ firsts, ∀ l ∈ loaded, Loads lib (joinedRows db userId) f l →
      decide (Delivers lib db userId subject target f.policy) =
        (clientEntryPolicyHasMember lib l.members target &&
          matchAll lib.toStandardLibrary (runtimeConditions l.mode l.conditions) subject &&
          (l.mode ≠ .split || l.assignedEntryHost ≠ "")) := by
    intro f first l listed loads
    rw [Bool.eq_iff_iff, decide_eq_true_eq]
    exact (loads.stops_iff readable known (joins f first)).symm
  have found := find?_related related alike
  have position : ∀ f ∈ firsts, f.visibleSort = db.position userId f.policy := fun f first =>
    (joins f first).visibleSort
  rw [matchedPolicy]
  cases chosen : firsts.find? fun f => decide (Delivers lib db userId subject target f.policy) with
  | none =>
    rw [chosen] at found
    generalize loaded.find? _ = result at found ⊢
    cases found
    intro p listed delivers
    obtain ⟨f, first, rfl⟩ := reached p listed delivers
    have refused := List.find?_eq_none.mp chosen f first
    exact refused (decide_eq_true delivers)
  | some f =>
    rw [chosen] at found
    obtain ⟨first, delivers, least⟩ := find?_of_pairwise sorted chosen
    generalize loaded.find? _ = result at found ⊢
    cases found with
    | @some _ l loads =>
      refine ⟨f.policy, (joins f first).policy, of_decide_eq_true delivers,
        loads.ruling_eq (joins f first), ?_⟩
      intro q listed delivers'
      obtain ⟨d, first', rfl⟩ := reached q listed delivers'
      have before := least d first' (decide_eq_true delivers')
      rwa [ByKeys, position f first, position d first'] at before

theorem matchedPolicy_decides (tree : Tree db) (readable : Readable lib db) {subject : Subject}
    {target : String × Int} (known : target.1 ∈ managedServerTypes)
    (load : Loaded lib (joinedRows db userId) loaded) :
    Decides lib db userId subject target
      ((matchedPolicy lib subject loaded target.1 target.2).map LoadedPolicy.ruling) := by
  have first := matchedPolicy_first subject readable known load
  cases found : matchedPolicy lib subject loaded target.1 target.2 with
  | none =>
    rw [found] at first
    exact fun p listed eligible => first p listed ((delivers_iff tree).mpr eligible)
  | some l =>
    rw [found] at first
    obtain ⟨p, listed, delivers, same, least⟩ := first
    refine ⟨p, listed, (delivers_iff tree).mp delivers, same, ?_⟩
    exact fun q listed' eligible => least q listed' ((delivers_iff tree).mpr eligible)

end

/-! ## The two agree -/

theorem eligible_subjects {db : RuleBase} {target : String × Int} (user : UserRow) (ua : String)
    (now : Int) :
    Eligible lib db user.id (simulationSubject lib user ua now) target p ↔
      Eligible lib db user.id (subscriptionSubject user ua now) target p := by
  constructor
  · rintro ⟨enabled, member, accepts, assigned⟩
    exact ⟨enabled, member, (matchAll_subjects lib _ user ua now) ▸ accepts, assigned⟩
  · rintro ⟨enabled, member, accepts, assigned⟩
    exact ⟨enabled, member, (matchAll_subjects lib _ user ua now).symm ▸ accepts, assigned⟩

theorem decides_subjects {db : RuleBase} {target : String × Int} {user : UserRow} {ua : String}
    {now : Int} {result : Option Ruling}
    (decides : Decides lib db user.id (simulationSubject lib user ua now) target result) :
    Decides lib db user.id (subscriptionSubject user ua now) target result := by
  cases result with
  | none =>
    intro p listed eligible
    exact decides p listed ((eligible_subjects lib user ua now).mpr eligible)
  | some ruling =>
    obtain ⟨p, listed, eligible, same, least⟩ := decides
    refine ⟨p, listed, (eligible_subjects lib user ua now).mp eligible, same, ?_⟩
    exact fun q listed' eligible' =>
      least q listed' ((eligible_subjects lib user ua now).mpr eligible')

/-- In every reachable state the simulation of a user, a user agent and a member of some
rule names the rule that decides about that server in the user's subscription, with the
entry and the flag it is delivered with. -/
theorem simulation_agrees_with_delivery (requests : List Request) (user : UserRow) (ua : String)
    (now : Int) (resolve : String → Int → Int → String) (m : MemberRow)
    (member : m ∈ (Transition.run (step lib) emptyRuleBase requests).members) (server : Server)
    (named : lib.lower (trimSpace server.serverType) = m.serverType ∧ server.id = m.serverId) :
    let db := Transition.run (step lib) emptyRuleBase requests
    ∃ records loaded, listClientEntryUserPolicies lib db = .ok records ∧
      loadClientEntryUserPolicies lib db user.id = .ok loaded ∧
      let simulated := (selectClientEntryUserPolicySimulation lib records
        (assignmentsOf db user.id) (simulationSubject lib user ua now) m.serverType
        m.serverId).map PolicyRecord.ruling
      (matchedPolicy lib (subscriptionSubject user ua now) loaded m.serverType m.serverId).map
          LoadedPolicy.ruling = simulated ∧
        ∀ before after : List Server,
          applyClientEntryUserPoliciesWithResolver lib resolve (before ++ server :: after)
              (subscriptionSubject user ua now) loaded =
            applyClientEntryUserPoliciesWithResolver lib resolve before
                (subscriptionSubject user ua now) loaded ++
              (applyRuling resolve user.id server simulated).toList ++
              applyClientEntryUserPoliciesWithResolver lib resolve after
                (subscriptionSubject user ua now) loaded := by
  intro db
  obtain ⟨tree, readable⟩ := run_readable lib requests
  have known : m.serverType ∈ managedServerTypes := (readable.members m member).1
  obtain ⟨loaded, load, built⟩ : ∃ loaded, loadClientEntryUserPolicies lib db user.id = .ok loaded ∧
      Loaded lib (joinedRows db user.id) loaded := loadClientEntryUserPolicies_ok readable
  have list := listClientEntryUserPolicies_ok readable
  refine ⟨_, loaded, list, load, ?_⟩
  have delivered : Decides lib db user.id (subscriptionSubject user ua now)
      (m.serverType, m.serverId) ((matchedPolicy lib (subscriptionSubject user ua now) loaded
        m.serverType m.serverId).map LoadedPolicy.ruling) :=
    matchedPolicy_decides tree readable known built
  have agree := delivered.unique lib (decides_subjects lib
    (selectClientEntryUserPolicySimulation_decides tree readable known list))
  refine ⟨agree, ?_⟩
  intro before after
  simp only [applyClientEntryUserPoliciesWithResolver, List.filterMap_append,
    List.filterMap_cons, named.1, named.2]
  rw [agree, show (subscriptionSubject user ua now).userID = user.id from rfl]
  cases applyRuling resolve user.id server _ with
  | none => exact (List.append_nil _ ▸ rfl)
  | some delivered => simp

end

/-! A split rule over two users: the first is in the first group. -/

private def twoUsersSplit : List Request :=
  [.outside
    { rows := [1, 2].map fun id => ⟨id, "", none, 1⟩
      keyed := by decide
      unique := by decide }
    { rows := [1, 2].map fun id => ⟨id, 50⟩
      keyed := by decide
      unique := by decide }
    [("vmess", 1)],
  .createSplit ⟨none, false, "rule", 60, [⟨"vmess", 1⟩], "a.example", "b.example", none, none, ""⟩
    1 ⟨1, 2⟩ 100]

theorem first_user_simulated_as_delivered :
    let db := Transition.run (step asciiEntryLibrary) emptyRuleBase twoUsersSplit
    let user : UserRow := ⟨1, "", none, 1⟩
    ∃ records loaded, listClientEntryUserPolicies asciiEntryLibrary db = .ok records ∧
      loadClientEntryUserPolicies asciiEntryLibrary db 1 = .ok loaded ∧
      (matchedPolicy asciiEntryLibrary (subscriptionSubject user "" 200) loaded "vmess" 1).map
          LoadedPolicy.ruling =
        (selectClientEntryUserPolicySimulation asciiEntryLibrary records (assignmentsOf db 1)
          (simulationSubject asciiEntryLibrary user "" 200) "vmess" 1).map
            PolicyRecord.ruling := by
  obtain ⟨records, loaded, list, load, agree, -⟩ :=
    simulation_agrees_with_delivery asciiEntryLibrary twoUsersSplit ⟨1, "", none, 1⟩ "" 200
      (fun host _ _ => host) ⟨1, "vmess", 1, 10⟩ ((Table.mem_def _ _).mpr (by decide +kernel))
      ⟨"vmess", 1, "node.example", false, none⟩ (by decide +kernel)
  exact ⟨records, loaded, list, load, agree⟩

end ForestPanel.ClientEntry
