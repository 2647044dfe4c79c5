import ForestPanel.ClientEntry.Integrity

/-!
# Every request keeps the shared entries

An operation keeps the entries of the items that stay in collections; where it writes the
entry of one, it was checked to be the shared one, or the whole collection is written.
-/
namespace ForestPanel.ClientEntry

open Outcome Relational

variable {policies : PolicyTable} {item : Item} {newId now id resolve : Int}

section

variable (lib : EntryLibrary) {db db' : RuleBase}

theorem keepsEntries_of_same (policies : db'.policies = db.policies)
    (groups : db'.groups = db.groups) (stays : Item → Prop) : KeepsEntries db db' stays := by
  constructor
  · intro p member _
    exact ⟨p, policies ▸ member, rfl, rfl, rfl, rfl, rfl⟩
  · intro g member leaf _
    rw [groups]
    exact ⟨g, member, ⟨rfl, rfl, rfl⟩, leaf⟩

theorem keepsEntries_of_rows {stays : Item → Prop}
    (policies : ∀ p ∈ db.policies, stays (.policy p.id) → p ∈ db'.policies)
    (groups : ∀ g ∈ db.groups, stays (.splitGroup g.id) → g ∈ db'.groups)
    (parents : ∀ g ∈ db'.groups, g ∈ db.groups ∨
      ∀ id, g.parentId = some id → ¬stays (.splitGroup id)) :
    KeepsEntries db db' stays := by
  constructor
  · intro p member stay
    exact ⟨p, policies p member stay, rfl, rfl, rfl, rfl, rfl⟩
  · intro g member leaf stay
    refine ⟨g, groups g member stay, ⟨rfl, rfl, rfl⟩, isLeaf_iff.mpr ?_⟩
    intro child listed below
    rcases parents child listed with before | elsewhere
    · exact isLeaf_iff.mp leaf child before below
    · exact elsewhere g.id below stay

theorem keepsEntry_updateWhere {p : PolicyRow → Bool} {f : PolicyRow → PolicyRow} {q : PolicyRow}
    (member : q ∈ policies) (hf : Preserves PolicyRow.id PolicyRow.id f) (same : q.KeepsEntry (f q))
    :
    ∃ q' ∈ policies.updateWhere p f hf, q.KeepsEntry q' := by
  refine ⟨if p q then f q else q, (Table.mem_updateWhere _ _ _ hf _).mpr ⟨q, member, rfl⟩, ?_⟩
  split
  · exact same
  · exact ⟨rfl, rfl, rfl, rfl, rfl⟩

theorem not_collectionForbids {forbids : CollectionRow → Bool}
    (allowed : collectionForbids db item forbids = false) {m : CollectionMemberRow}
    (member : m ∈ db.collectionMembers) (same : m.item = item) {c : CollectionRow}
    (listed : c ∈ db.collections) (id : c.id = m.collectionId) : forbids c = false := by
  rw [Bool.eq_false_iff]
  intro forbidden
  exact of_decide_eq_false allowed ⟨m, member, same, c, listed, id, forbidden⟩

theorem saveClientEntryUserPolicy_collected (collected : Collected db) {req : PolicySaveRequest}
    (returned : saveClientEntryUserPolicy lib db req newId now = .ok db') : Collected db' := by
  obtain ⟨prepared, conditions, members, -, -, -, inserted | edited⟩ :=
    saveClientEntryUserPolicy_cases lib returned
  · obtain ⟨policies, -, -, rfl, rows⟩ := inserted
    refine collected.keepAll rfl rfl ?_
    exact keepsEntries_of_rows (fun p member _ => (rows p).mpr (Or.inl member))
      (fun _ member _ => member) fun _ member => Or.inl member
  · obtain ⟨policyId, allowed, rfl⟩ := edited
    refine collected.keep rfl rfl ?_
    intro m member c listed id shares
    cases item : m.item with
    | splitGroup groupId =>
      rw [item] at shares
      exact shares
    | policy itemId =>
      rw [item] at shares
      obtain ⟨p, there, rfl, standard, override, host, resolve⟩ := shares
      by_cases same : p.id = policyId
      · -- the edit was checked against the collection
        have stays := not_collectionForbids allowed member (item.trans (congrArg _ same)) listed id
        simp only [leavesCollection, Bool.or_eq_false_iff, decide_eq_false_iff_not,
          Decidable.not_not, ne_eq] at stays
        obtain ⟨⟨sameHost, isOverride⟩, sameResolve⟩ := stays
        have chosen : (p.id = policyId && p.mode = .standard) = true := by simp [same, standard]
        refine ⟨rewritten prepared conditions now p, ?_, rfl, standard, isOverride, sameHost.symm,
          ?_⟩
        · apply (Table.mem_updateWhere _ _ _ _ _).mpr
          · exact ⟨p, there, if_pos chosen⟩
          · exact fun _ => ⟨rfl, rfl⟩
        · intro flag set
          rw [set, Option.any_some, decide_eq_false_iff_not, Decidable.not_not] at sameResolve
          exact sameResolve.symm
      · refine ⟨p, ?_, rfl, standard, override, host, resolve⟩
        apply (Table.mem_updateWhere _ _ _ _ _).mpr
        · exact ⟨p, there, if_neg (by simp [same])⟩
        · exact fun _ => ⟨rfl, rfl⟩

theorem setClientEntryUserPolicyEnabled_collected (collected : Collected db) {enabled : Int}
    (returned : setClientEntryUserPolicyEnabled db id enabled now = .ok db') : Collected db' := by
  simp only [setClientEntryUserPolicyEnabled, bind_eq_ok, ensure_eq_ok, exists_const,
    pure_eq_ok] at returned
  obtain ⟨-, -, -, rfl⟩ := returned
  refine collected.keepAll rfl rfl ?_
  refine ⟨fun p member _ => ?_, fun g member leaf _ => ⟨g, member, ⟨rfl, rfl, rfl⟩, leaf⟩⟩
  refine keepsEntry_updateWhere member ?_ ?_
  · exact fun _ => ⟨rfl, rfl⟩
  · exact ⟨rfl, rfl, rfl, rfl, rfl⟩

theorem deleteClientEntryUserPolicy_collected (tree : Tree db) (collected : Collected db)
    (returned : deleteClientEntryUserPolicy db id = .ok db') : Collected db' := by
  obtain ⟨policies, groups, -, members, collections⟩ :=
    deleteClientEntryUserPolicy_cases tree returned
  refine collected.detach collections members (keepsEntries_of_rows ?_ ?_ ?_)
  · intro p member stays
    refine (policies p).mpr ⟨member, ?_⟩
    rintro rfl
    simp [itemOfPolicy] at stays
  · intro g member stays
    refine (groups g).mpr ⟨member, ?_⟩
    rintro rfl
    simp only [itemOfPolicy, reduceCtorEq, decide_false, Bool.false_or,
      decide_eq_false_iff_not] at stays
    exact stays ⟨g, member, rfl, rfl⟩
  · intro g member
    exact Or.inl ((groups g).mp member).1

theorem createClientEntryUserPolicySplit_collected (collected : Collected db)
    {req : SplitCreateRequest} {new : NewGroups}
    (returned : createClientEntryUserPolicySplit lib db req newId new now = .ok db') :
    Collected db' := by
  obtain ⟨prepared, policies, groups, assignments, members, rows, -, -, -, listed, added, -, -, -,
    rfl⟩ := createClientEntryUserPolicySplit_cases lib returned
  refine collected.keepAll rfl rfl ?_
  refine keepsEntries_of_rows (fun p member _ => (listed p).mpr (Or.inl member))
    (fun g member _ => (added.rows g).mpr (Or.inl member)) ?_
  intro g member
  rcases (added.rows g).mp member with before | new
  · exact Or.inl before
  · right
    intro id below
    rcases List.mem_cons.mp new with rfl | second
    · cases below
    · split at second
      · cases second
      · rw [List.mem_singleton.mp second] at below
        cases below

theorem convertClientEntryUserPolicyToSplit_collected (collected : Collected db)
    {req : SplitConvertRequest} {pool : Except String (List BackupIP)} {new : NewGroups}
    (returned : convertClientEntryUserPolicyToSplit lib db req pool new now = .ok db') :
    Collected db' := by
  obtain ⟨policy, hostA, hostB, shifted, groups, assignments, users, -, -, -, -, -, shift, added, -,
    rfl⟩ := convertClientEntryUserPolicyToSplit_cases lib returned
  have reordered := shiftVisibleSortsAfter_reordered shift
  have shiftedCollected : Collected { shifted with groups, assignments } := by
    refine collected.keepAll reordered.collections reordered.collectionMembers ?_
    apply (reordered.keepsEntries _).trans
    refine keepsEntries_of_rows (fun _ member _ => member)
      (fun g member _ => (added.rows g).mpr (Or.inl member)) ?_
    intro g member
    rcases (added.rows g).mp member with before | fresh
    · exact Or.inl before
    · right
      intro id below
      rcases List.mem_pair.mp fresh with rfl | rfl
      · cases below
      · cases below
  refine shiftedCollected.detach rfl (fun m => Table.mem_deleteWhere _ _ _) ?_
  refine ⟨?_, fun g member leaf _ => ⟨g, member, ⟨rfl, rfl, rfl⟩, leaf⟩⟩
  intro p member stays
  refine ⟨p, ?_, rfl, rfl, rfl, rfl, rfl⟩
  apply (Table.mem_updateWhere _ _ _ _ _).mpr
  · refine ⟨p, member, if_neg ?_⟩
    simp only [Bool.and_eq_true, decide_eq_true_eq]
    rintro ⟨same, -⟩
    simp [itemOfPolicy, same] at stays
  · exact fun _ => ⟨rfl, rfl⟩

theorem divideLeaf_collected (collected : Collected db) {leaf : GroupRow} {position : Int}
    {children : Children} (divided : divideLeaf db leaf position resolve children now = some db') :
    Collected db' := by
  obtain ⟨shifted, groups, shift, added, rfl⟩ := divideLeaf_cases divided
  have reordered := shiftVisibleSortsAfter_reordered shift
  have shiftedCollected : Collected shifted :=
    collected.keepAll reordered.collections reordered.collectionMembers (reordered.keepsEntries _)
  have stay : ∀ item : Item, decide (item = .splitGroup leaf.id) = false →
      item ≠ .splitGroup leaf.id := fun item stays => of_decide_eq_false stays
  refine @Collected.detach _ _ shiftedCollected (fun item => item = .splitGroup leaf.id) rfl
    (fun m => Table.mem_deleteWhere _ _ _) ?_
  constructor
  · intro p member _
    refine keepsEntry_updateWhere member ?_ ?_
    · exact fun _ => ⟨rfl, rfl⟩
    · exact ⟨rfl, rfl, rfl, rfl, rfl⟩
  · intro g member isLeaf stays
    have other : g.id ≠ leaf.id := fun same => stay _ stays (congrArg _ same)
    have unchanged : ¬decide (g.id = leaf.id) = true := by simpa using other
    refine ⟨g, ?_, ⟨rfl, rfl, rfl⟩, ?_⟩
    · apply (Table.mem_updateWhere _ _ _ _ _).mpr
      · exact ⟨g, (added.rows g).mpr (Or.inl member), if_neg unchanged⟩
      · exact fun _ => ⟨rfl, rfl⟩
    · rw [isLeaf_iff]
      intro child listed below
      have image : ∃ old ∈ groups, old.parentId = child.parentId := by
        dsimp only at listed
        rw [Table.mem_updateWhere] at listed
        obtain ⟨old, before, rfl⟩ := listed
        refine ⟨old, before, ?_⟩
        split
        · rfl
        · rfl
      obtain ⟨old, before, sameParent⟩ := image
      have parent : old.parentId = some g.id := sameParent.trans below
      rcases (added.rows old).mp before with there | new
      · exact isLeaf_iff.mp isLeaf old there parent
      · -- the children are below the divided leaf
        have above : old.parentId = some leaf.id := by
          rcases List.mem_pair.mp new with rfl | rfl
          · rfl
          · rfl
        exact other (Option.some.inj (parent.symm.trans above))

theorem updateClientEntryUserPolicySplitGroupHost_collected (collected : Collected db)
    {req : GroupHostUpdateRequest}
    (returned : updateClientEntryUserPolicySplitGroupHost lib db req now = .ok db') :
    Collected db' := by
  have edited := updateClientEntryUserPolicySplitGroupHost_cases lib returned
  obtain ⟨leaf, name, host, policies, members, f, listed, -, leafy, -, allowed, rows, same, -, rfl⟩ :=
    edited
  refine collected.keep rfl rfl ?_
  intro m member c there id shares
  cases item : m.item with
  | policy policyId =>
    rw [item] at shares
    obtain ⟨p, before, rfl, standard, override, sameHost, sameResolve⟩ := shares
    refine ⟨f p, (Table.mem_of_rows_map rows _).mpr ⟨p, before, rfl⟩, (same p).id,
      (same p).mode.trans standard, (same p).action.trans override,
      (same p).entryHost.trans sameHost, ?_⟩
    rw [(same p).resolveEntryHost]
    exact sameResolve
  | splitGroup groupId =>
    rw [item] at shares
    obtain ⟨g, before, rfl, isLeafG, sameHost, sameResolve⟩ := shares
    -- the edit leaves every parent where it is
    have leafAfter : isLeaf (db.groups.updateWhere (fun g => g.id = leaf.id)
        (rewrittenLeaf name host req.resolveEntryHost now) fun _ => ⟨rfl, rfl⟩) g.id = true := by
      rw [isLeaf_iff]
      intro child after below
      rw [Table.mem_updateWhere] at after
      obtain ⟨old, inside, rfl⟩ := after
      refine isLeaf_iff.mp isLeafG old inside ?_
      split at below
      · exact below
      · exact below
    by_cases isEdited : g.id = leaf.id
    · obtain rfl := db.groups.eq_of_key before listed isEdited
      have stays := not_collectionForbids allowed member item there id
      simp only [leafLeavesCollection, Bool.or_eq_false_iff, decide_eq_false_iff_not,
        Decidable.not_not, ne_eq] at stays
      obtain ⟨hostStays, resolveStays⟩ := stays
      refine ⟨rewrittenLeaf name host req.resolveEntryHost now g, ?_, rfl, leafAfter,
        hostStays.symm, ?_⟩
      · refine (Table.mem_updateWhere _ _ _ ?_ _).mpr ⟨g, before, if_pos (decide_eq_true rfl)⟩
        exact fun _ => ⟨rfl, rfl⟩
      · intro flag set
        rw [set, Option.any_some] at resolveStays
        unfold rewrittenLeaf
        cases wanted : req.resolveEntryHost with
        | none => exact sameResolve flag set
        | some value =>
          rw [wanted, Option.any_some, decide_eq_false_iff_not, Decidable.not_not] at resolveStays
          rw [resolveStays]
          rfl
    · refine ⟨g, ?_, rfl, leafAfter, sameHost, sameResolve⟩
      refine (Table.mem_updateWhere _ _ _ ?_ _).mpr ⟨g, before, if_neg (by simpa using isEdited)⟩
      exact fun _ => ⟨rfl, rfl⟩

theorem moveClientEntryUserPolicySplitGroupToRoot_collected (tree : Tree db)
    (collected : Collected db) {policyId groupId : Int}
    (returned : moveClientEntryUserPolicySplitGroupToRoot db policyId groupId now = .ok db') :
    Collected db' := by
  obtain ⟨target, parent, path, sort, moved, pruned, listed, -, -, -, -, -, rows, kept, rfl⟩ :=
    moveClientEntryUserPolicySplitGroupToRoot_cases tree returned
  have childless : ∀ id, isLeaf db.groups id = true →
      childCount db.groups.rows target.policyId id = 0 := by
    intro id leaf
    rw [childCount, List.countP_eq_zero]
    intro child member
    simpa using isLeaf_iff.mp leaf child (List.mem_filter.mp member).1
  -- a leaf stays, maybe at another place
  have leaves : ∀ g ∈ db.groups, isLeaf db.groups g.id = true →
      ∃ g' ∈ pruned.groups, g.KeepsEntry g' ∧ isLeaf pruned.groups g'.id = true := by
    intro g member leaf
    have same : (movedGroup target.id target.policyId path sort now g).id = g.id := by
      unfold movedGroup
      split
      · rfl
      · rfl
    refine ⟨movedGroup target.id target.policyId path sort now g, ?_, ?_, ?_⟩
    · apply kept.kept _ ((Table.mem_of_rows_map rows _).mpr ⟨g, member, rfl⟩)
      rw [same]
      exact childless g.id leaf
    · unfold movedGroup
      split
      · exact ⟨rfl, rfl, rfl⟩
      · exact ⟨rfl, rfl, rfl⟩
    · rw [same, isLeaf_iff]
      intro child inside below
      obtain ⟨old, before, rfl⟩ := (Table.mem_of_rows_map rows _).mp (kept.groups child inside)
      refine isLeaf_iff.mp leaf old before ?_
      unfold movedGroup at below
      split at below
      · cases below
      · exact below
  have stay : ∀ m, m ∈ pruned.collectionMembers ↔ m ∈ db.collectionMembers := by
    intro m
    refine ⟨kept.collectionMembers m, fun member => kept.joined m member ?_⟩
    intro id item
    obtain ⟨c, -, -, shares⟩ := collected.member m member
    rw [item] at shares
    obtain ⟨g, -, rfl, leaf, -⟩ := shares
    exact childless g.id leaf
  have keeps : KeepsEntries db { pruned with
      policies := pruned.policies.updateWhere
        (fun p => p.id = policyId && p.mode = .split)
        (fun p => { p with updatedAt := now })
        fun _ => ⟨rfl, rfl⟩ } fun _ => True := by
    constructor
    · intro p member _
      have before : p ∈ pruned.policies := kept.policies ▸ member
      refine keepsEntry_updateWhere before ?_ ?_
      · exact fun _ => ⟨rfl, rfl⟩
      · exact ⟨rfl, rfl, rfl, rfl, rfl⟩
    · intro g member leaf _
      exact leaves g member leaf
  have collections : pruned.collections = db.collections := kept.collections
  constructor
  · intro c member
    exact collected.positive c (collections ▸ member)
  · intro m member
    obtain ⟨c, there, id, shares⟩ := collected.member m ((stay m).mp member)
    exact ⟨c, collections ▸ there, id, keeps.shares rfl rfl trivial shares⟩
  · intro c member
    obtain ⟨m, there, id⟩ := collected.inhabited c (collections ▸ member)
    exact ⟨m, (stay m).mpr there, id⟩

private theorem shares_of_joining {items : List Item} {host : String} {groups : GroupTable}
    {c : CollectionRow}
    (rules : policies.rows = db.policies.rows.map (policyWithEntry host resolve now items))
    (leaves : groups.rows = db.groups.rows.map (groupWithEntry host resolve now items))
    (joins : canJoin db item = true) (inside : item ∈ items) (sameHost : c.entryHost = host)
    (sameResolve : c.resolveEntryHost = some resolve) :
    Shares { db with policies, groups } c item := by
  cases item with
  | policy id =>
    obtain ⟨p, member, rfl, standard, override⟩ := of_decide_eq_true joins
    refine ⟨_, (Table.mem_of_rows_map rules _).mpr ⟨p, member, rfl⟩, ?_⟩
    rw [policyWithEntry, if_pos inside]
    refine ⟨rfl, standard, override, sameHost.symm, ?_⟩
    intro flag set
    exact Option.some.inj (sameResolve.symm.trans set)
  | splitGroup id =>
    obtain ⟨g, member, rfl, -, leaf⟩ := of_decide_eq_true joins
    refine ⟨_, (Table.mem_of_rows_map leaves _).mpr ⟨g, member, rfl⟩, ?_⟩
    have isLeafAfter : isLeaf groups g.id = true := by
      rw [isLeaf_iff]
      intro child after below
      obtain ⟨old, before, rfl⟩ := (Table.mem_of_rows_map leaves child).mp after
      refine isLeaf_iff.mp leaf old before ?_
      unfold groupWithEntry at below
      split at below
      · exact below
      · exact below
    rw [groupWithEntry, if_pos inside]
    refine ⟨rfl, isLeafAfter, sameHost.symm, ?_⟩
    intro flag set
    exact sameResolve.symm.trans set

private theorem keepsEntries_of_others {items : List Item} {host : String} {groups : GroupTable}
    (rules : policies.rows = db.policies.rows.map (policyWithEntry host resolve now items))
    (leaves : groups.rows = db.groups.rows.map (groupWithEntry host resolve now items)) :
    KeepsEntries db { db with policies, groups } fun item => item ∉ items := by
  constructor
  · intro p member outside
    refine ⟨p, (Table.mem_of_rows_map rules _).mpr ⟨p, member, if_neg outside⟩, ?_⟩
    exact ⟨rfl, rfl, rfl, rfl, rfl⟩
  · intro g member leaf outside
    refine ⟨g, (Table.mem_of_rows_map leaves _).mpr ⟨g, member, if_neg outside⟩, ⟨rfl, rfl, rfl⟩,
      ?_⟩
    rw [isLeaf_iff]
    intro child after below
    obtain ⟨old, before, rfl⟩ := (Table.mem_of_rows_map leaves child).mp after
    refine isLeaf_iff.mp leaf old before ?_
    unfold groupWithEntry at below
    split at below
    · exact below
    · exact below

theorem saveClientEntryCollection_collected (collected : Collected db) {req : CollectionSaveRequest}
    (returned : saveClientEntryCollection lib db req newId now = .ok db') : Collected db' := by
  obtain ⟨host, resolve, items, id, collections, policies, groups, collectionMembers, -, nonempty,
    joins, alone, known, ⟨c, there, isId⟩, saved, others, rules, leaves, listed, rfl⟩ :=
    saveClientEntryCollection_cases lib returned
  constructor
  · intro c' member
    by_cases same : c'.id = id
    · rw [same]
      rcases known with positive | ⟨old, before, oldId⟩
      · exact positive
      · rw [← oldId]
        exact collected.positive old before
    · exact collected.positive c' ((others c' same).mp member)
  · intro m member
    rcases (listed m).mp member with ⟨before, elsewhere⟩ | ⟨isMember, inside⟩
    · obtain ⟨old, oldThere, oldId, shares⟩ := collected.member m before
      have otherId : old.id ≠ id := by
        rw [oldId]
        exact elsewhere
      refine ⟨old, (others old otherId).mpr oldThere, oldId, ?_⟩
      refine (keepsEntries_of_others rules leaves).shares rfl rfl ?_ shares
      intro inside
      rcases alone m.item inside m before rfl with same | zero
      · exact elsewhere same
      · have positive := collected.positive old oldThere
        omega
    · obtain ⟨sameHost, sameResolve⟩ := saved c there isId
      exact ⟨c, there, isId.trans isMember.symm,
        shares_of_joining rules leaves (joins m.item inside) inside sameHost sameResolve⟩
  · intro c' member
    by_cases same : c'.id = id
    · obtain ⟨item, inside⟩ := List.exists_mem_of_ne_nil items nonempty
      exact ⟨⟨id, item⟩, (listed _).mpr (Or.inr ⟨rfl, inside⟩), same.symm⟩
    · obtain ⟨m, before, isMember⟩ := collected.inhabited c' ((others c' same).mp member)
      refine ⟨m, (listed m).mpr (Or.inl ⟨before, ?_⟩), isMember⟩
      rw [isMember]
      exact same

theorem deleteClientEntryCollection_collected (collected : Collected db) {version : Int}
    (returned : deleteClientEntryCollection db id version = .ok db') : Collected db' := by
  simp only [deleteClientEntryCollection, bind_eq_ok, ensure_eq_ok, exists_const,
    pure_eq_ok] at returned
  obtain ⟨-, -, rfl⟩ := returned
  constructor
  · intro c member
    exact collected.positive c ((Table.mem_deleteWhere _ _ _).mp member).1
  · intro m member
    obtain ⟨before, elsewhere⟩ := (Table.mem_deleteWhere _ _ _).mp member
    obtain ⟨c, there, isId, shares⟩ := collected.member m before
    refine ⟨c, (Table.mem_deleteWhere _ _ _).mpr ⟨there, ?_⟩, isId, ?_⟩
    · rw [isId]
      exact elsewhere
    · exact (keepsEntries_of_same rfl rfl fun _ => True).shares rfl rfl trivial shares
  · intro c member
    obtain ⟨before, elsewhere⟩ := (Table.mem_deleteWhere _ _ _).mp member
    obtain ⟨m, there, isId⟩ := collected.inhabited c before
    refine ⟨m, (Table.mem_deleteWhere _ _ _).mpr ⟨there, ?_⟩, isId⟩
    rw [isId]
    exact elsewhere

theorem removeClientEntryCollectionMember_collected (collected : Collected db) {version : Int}
    (returned : removeClientEntryCollectionMember db id version item = .ok db') :
    Collected db' := by
  simp only [removeClientEntryCollectionMember, bind_eq_ok, ensure_eq_ok, exists_const,
    pure_eq_ok] at returned
  obtain ⟨-, -, -, rfl⟩ := returned
  set left := db.collectionMembers.deleteWhere fun m => m.collectionId = id && m.item = item
  set versioned := db.collections.updateWhere (fun c => c.id = id)
    (fun c => { c with version := c.version + 1 }) fun _ => ⟨rfl, rfl⟩ with versionedEq
  have image : ∀ c', c' ∈ versioned ↔ ∃ c ∈ db.collections,
      (if decide (c.id = id) = true then { c with version := c.version + 1 } else c) = c' :=
    fun c' => Table.mem_updateWhere _ _ _ _ c'
  have kept : ∀ c', c' ∈ versioned.deleteWhere (fun c =>
      c.id = id && !decide (∃ m ∈ left, m.collectionId = id)) ↔
      c' ∈ versioned ∧ (c'.id = id → ∃ m ∈ left, m.collectionId = id) := by
    intro c'
    rw [Table.mem_deleteWhere]
    apply and_congr_right'
    rw [Bool.and_eq_false_iff, decide_eq_false_iff_not, Bool.not_eq_false', decide_eq_true_eq]
    exact imp_iff_not_or.symm
  have remaining : ∀ m, m ∈ left ↔ m ∈ db.collectionMembers ∧
      (decide (m.collectionId = id) && decide (m.item = item)) = false :=
    fun m => Table.mem_deleteWhere _ _ _
  constructor
  · intro c' member
    obtain ⟨c, there, rfl⟩ := (image c').mp ((kept c').mp member).1
    split
    · exact collected.positive c there
    · exact collected.positive c there
  · intro m member
    obtain ⟨c, there, isId, shares⟩ := collected.member m ((remaining m).mp member).1
    have sameId : (if decide (c.id = id) = true then { c with version := c.version + 1 }
        else c).id = c.id := by
      split
      · rfl
      · rfl
    refine ⟨_, (kept _).mpr ⟨(image _).mpr ⟨c, there, rfl⟩, ?_⟩, sameId.trans isId, ?_⟩
    · intro same
      exact ⟨m, member, isId.symm.trans (sameId.symm.trans same)⟩
    · split
      · exact (keepsEntries_of_same rfl rfl fun _ => True).shares rfl rfl trivial shares
      · exact (keepsEntries_of_same rfl rfl fun _ => True).shares rfl rfl trivial shares
  · intro c' member
    obtain ⟨versionedMember, alive⟩ := (kept c').mp member
    by_cases same : c'.id = id
    · obtain ⟨m, there, isId⟩ := alive same
      exact ⟨m, there, isId.trans same.symm⟩
    · obtain ⟨c, there, rfl⟩ := (image c').mp versionedMember
      split at same
      next chosen => exact absurd (of_decide_eq_true chosen) same
      next unchanged =>
        rw [if_neg unchanged]
        obtain ⟨m, before, isId⟩ := collected.inhabited c there
        refine ⟨m, (remaining m).mpr ⟨before, ?_⟩, isId⟩
        rw [isId, decide_eq_false same, Bool.false_and]

theorem handle_collected (tree : Tree db) (collected : Collected db) {request : Request}
    (returned : handle lib db request = .ok db') : Collected db' := by
  have reorder : Reordered db db' → Collected db' := fun reordered =>
    collected.keepAll reordered.collections reordered.collectionMembers (reordered.keepsEntries _)
  cases request with
  | savePolicy => exact saveClientEntryUserPolicy_collected lib collected returned
  | deletePolicy => exact deleteClientEntryUserPolicy_collected tree collected returned
  | setEnabled => exact setClientEntryUserPolicyEnabled_collected collected returned
  | createSplit => exact createClientEntryUserPolicySplit_collected lib collected returned
  | convert => exact convertClientEntryUserPolicyToSplit_collected lib collected returned
  | splitGroup =>
    obtain ⟨leaf, position, resolve, children, -, -, -, -, divided⟩ :=
      splitClientEntryUserPolicyGroup_cases lib returned
    exact divideLeaf_collected collected divided
  | autoSplit =>
    rcases processNextClientEntryAutoSplit_cases lib returned with
      rfl | ⟨leaf, position, resolve, children, -, -, -, -, divided⟩
    · exact collected
    · exact divideLeaf_collected collected divided
  | updateGroup =>
    exact updateClientEntryUserPolicySplitGroupHost_collected lib collected returned
  | moveToRoot => exact moveClientEntryUserPolicySplitGroupToRoot_collected tree collected returned
  | sortGroups => exact reorder (sortClientEntryUserPolicySplitGroups_reordered returned)
  | sortPolicies => exact reorder (sortClientEntryUserPolicies_reordered returned)
  | sortRows => exact reorder (sortClientEntryUserPolicyRows_reordered tree.placed returned)
  | moveRows => exact reorder (moveClientEntryVisibleRows_reordered tree.placed returned)
  | saveCollection => exact saveClientEntryCollection_collected lib collected returned
  | deleteCollection => exact deleteClientEntryCollection_collected collected returned
  | removeMember => exact removeClientEntryCollectionMember_collected collected returned
  | deleteUsers | deleteServer | outside =>
    cases returned
    refine collected.keepAll rfl rfl (keepsEntries_of_same ?_ ?_ _)
    · rfl
    · rfl

theorem run_collected (requests : List Request) :
    Tree (Transition.run (step lib) emptyRuleBase requests) ∧
      Collected (Transition.run (step lib) emptyRuleBase requests) := by
  apply Transition.run_invariant (I := fun db => Tree db ∧ Collected db) (G := fun _ _ => True)
    _ emptyRuleBase requests ⟨tree_empty, collected_empty⟩ (Transition.along_true _ _)
  intro db request both _
  refine ⟨step_tree lib both.1 request, ?_⟩
  exact commit_cases _ _ both.2 fun _ returned => handle_collected lib both.1 both.2 returned

/-- A member is a standard override rule with the entry of its collection. -/
def SharedPolicy (db : RuleBase) (c : CollectionRow) (id : Int) : Prop :=
  ∃ p ∈ db.policies, p.id = id ∧ p.mode = .standard ∧ p.action = .override ∧
    p.entryHost = c.entryHost ∧ ∀ resolve ∈ c.resolveEntryHost, p.resolveEntryHost = resolve

/-- A member is a leaf of a split rule with the entry of its collection. -/
def SharedLeaf (db : RuleBase) (c : CollectionRow) (id : Int) : Prop :=
  ∃ g ∈ db.groups, g.id = id ∧ isLeaf db.groups id = true ∧
    (∃ p ∈ db.policies, p.id = g.policyId ∧ p.mode = .split) ∧ g.entryHost = c.entryHost ∧
    ∀ resolve ∈ c.resolveEntryHost, g.resolveEntryHost = some resolve

/-- In every reachable state a member of a collection has its entry, is in no other
collection, and no collection is empty. -/
theorem collection_members_share_entry (requests : List Request) :
    let db := Transition.run (step lib) emptyRuleBase requests
    (∀ m ∈ db.collectionMembers, ∃ c ∈ db.collections, c.id = m.collectionId ∧
      match m.item with
      | .policy id => SharedPolicy db c id
      | .splitGroup id => SharedLeaf db c id) ∧
    (∀ m ∈ db.collectionMembers, ∀ n ∈ db.collectionMembers, m.item = n.item → m = n) ∧
    ∀ c ∈ db.collections, ∃ m ∈ db.collectionMembers, m.collectionId = c.id := by
  obtain ⟨tree, collected⟩ := run_collected lib requests
  refine ⟨?_, ?_, collected.inhabited⟩
  · intro m member
    obtain ⟨c, there, isId, shares⟩ := collected.member m member
    refine ⟨c, there, isId, ?_⟩
    cases item : m.item with
    | policy id =>
      rw [item] at shares
      exact shares
    | splitGroup id =>
      rw [item] at shares
      obtain ⟨g, listed, same, leaf, host, resolve⟩ := shares
      rw [same] at leaf
      exact ⟨g, listed, same, leaf, tree.owner g listed, host, resolve⟩
  · intro m member n member' same
    exact (Transition.run (step lib) emptyRuleBase requests).collectionMembers.eq_of_key member
      member' same

end

end ForestPanel.ClientEntry
