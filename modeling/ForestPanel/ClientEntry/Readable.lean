import ForestPanel.ClientEntry.Integrity

/-!
# What is stored can be loaded

Every stored rule has a positive id, a flag that is `0` or `1` and conditions that are
decoded, and every membership names a node of a known kind: the requests that write rules
and memberships check them, and no other request writes these columns.
-/
namespace ForestPanel.ClientEntry

open Outcome Relational

variable {newId now : Int}

section

variable (lib : EntryLibrary) {db db' : RuleBase}

structure PolicyRow.Readable (p : PolicyRow) : Prop where
  positive : 0 < p.id
  enabled : p.enabled = 0 ∨ p.enabled = 1
  conditions : ∃ cs, decodeConditions lib.toStandardLibrary p.conditions = .ok cs

structure Readable (db : RuleBase) : Prop where
  policies : ∀ p ∈ db.policies, p.Readable lib
  members : ∀ m ∈ db.members, m.Known

theorem readable_empty : Readable lib emptyRuleBase := by
  constructor <;> (intro row member; cases member)

/-- A row that takes these columns from another. -/
structure PolicyRow.Follows (q p : PolicyRow) : Prop where
  id : q.id = p.id
  conditions : q.conditions = p.conditions
  enabled : q.enabled = p.enabled ∨ q.enabled = 0 ∨ q.enabled = 1

theorem PolicyRow.Follows.refl (p : PolicyRow) : p.Follows p := ⟨rfl, rfl, Or.inl rfl⟩

variable {lib}

theorem PolicyRow.Readable.follow {p q : PolicyRow} (readable : p.Readable lib)
    (follows : q.Follows p) : q.Readable lib := by
  refine ⟨follows.id ▸ readable.positive, ?_, follows.conditions ▸ readable.conditions⟩
  rcases follows.enabled with same | valid
  · rw [same]
    exact readable.enabled
  · exact valid

theorem Readable.write (readable : Readable lib db)
    (policies : ∀ q ∈ db'.policies, q.Readable lib ∨ ∃ p ∈ db.policies, q.Follows p)
    (members : ∀ m ∈ db'.members, m ∈ db.members ∨ m.Known) : Readable lib db' := by
  constructor
  · intro q member
    rcases policies q member with new | ⟨p, listed, follows⟩
    · exact new
    · exact (readable.policies p listed).follow follows
  · intro m member
    rcases members m member with before | known
    · exact readable.members m before
    · exact known

theorem follows_updateWhere (policies : PolicyTable) {p : PolicyRow → Bool}
    {f : PolicyRow → PolicyRow} (hf : Preserves PolicyRow.id PolicyRow.id f)
    (same : ∀ a, p a = true → (f a).Follows a) :
    ∀ q ∈ policies.updateWhere p f hf, ∃ a ∈ policies, q.Follows a := by
  intro q member
  rw [Table.mem_updateWhere] at member
  obtain ⟨a, listed, rfl⟩ := member
  refine ⟨a, listed, ?_⟩
  split
  next chosen => exact same a chosen
  next => exact PolicyRow.Follows.refl a

theorem Readable.reorder (readable : Readable lib db) (reordered : Reordered db db') :
    Readable lib db' := by
  apply readable.write
  · intro q member
    obtain ⟨p, listed, alike⟩ := reordered.policy member
    exact Or.inr ⟨p, listed, alike.id.symm, alike.conditions.symm, Or.inl alike.enabled.symm⟩
  · intro m member
    rw [reordered.members] at member
    exact Or.inl member

theorem Readable.shrink (readable : Readable lib db)
    (policies : ∀ q ∈ db'.policies, q ∈ db.policies)
    (members : ∀ m ∈ db'.members, m ∈ db.members) : Readable lib db' :=
  readable.write (fun q member => Or.inr ⟨q, policies q member, PolicyRow.Follows.refl q⟩)
    fun m member => Or.inl (members m member)

variable (lib)

theorem decodes_of_prepared {req : PolicySaveRequest} {prepared : PreparedPolicy}
    {conditions : String}
    (normalized : normalizeClientEntryUserPolicySaveRequest lib req = .ok prepared)
    (encoded : encodeConditions lib.toStandardLibrary prepared.conditions = .ok conditions) :
    ∃ cs, decodeConditions lib.toStandardLibrary conditions = .ok cs := by
  obtain ⟨-, ⟨values, normal⟩, -⟩ := prepared_sound lib normalized
  obtain ⟨again, -, -⟩ := normalizeFrom_settles lib.toStandardLibrary normal
  obtain ⟨text, written, decoded⟩ :=
    decodeConditions_encodeConditions lib.toStandardLibrary (again 0)
  rw [encoded] at written
  cases written
  exact ⟨prepared.conditions, decoded⟩

theorem saveClientEntryUserPolicy_readable (readable : Readable lib db) {req : PolicySaveRequest}
    (returned : saveClientEntryUserPolicy lib db req newId now = .ok db') : Readable lib db' := by
  obtain ⟨prepared, conditions, members, normalized, encoded, listed, written⟩ :=
    saveClientEntryUserPolicy_cases lib returned
  obtain ⟨enabled, -, known⟩ := prepared_sound lib normalized
  have decodes := decodes_of_prepared lib normalized encoded
  have memberships : ∀ m ∈ members, m ∈ db.members ∨ m.Known := fun m member =>
    (listed m member).imp_right (known (m.serverType, m.serverId))
  rcases written with ⟨policies, positive, -, rfl, rows⟩ | ⟨policyId, -, rfl⟩
  · refine readable.write ?_ memberships
    intro q member
    rcases (rows q).mp member with before | rfl
    · exact Or.inr ⟨q, before, PolicyRow.Follows.refl q⟩
    · exact Or.inl ⟨positive, enabled, decodes⟩
  · refine readable.write ?_ memberships
    intro q member
    dsimp only at member
    rw [Table.mem_updateWhere] at member
    obtain ⟨p, before, rfl⟩ := member
    split
    · exact Or.inl ⟨(readable.policies p before).positive, enabled, decodes⟩
    · exact Or.inr ⟨p, before, PolicyRow.Follows.refl p⟩

theorem deleteClientEntryUserPolicy_readable (tree : Tree db) (readable : Readable lib db) {id : Int}
    (returned : deleteClientEntryUserPolicy db id = .ok db') : Readable lib db' := by
  refine readable.shrink ?_ ?_
  · intro q member
    exact (((deleteClientEntryUserPolicy_cases tree returned).1 q).mp member).1
  · intro m member
    simp only [deleteClientEntryUserPolicy, bind_eq_ok, ensure_eq_ok, exists_const,
      pure_eq_ok] at returned
    obtain ⟨-, -, rfl⟩ := returned
    exact ((Table.mem_deleteWhere _ _ _).mp member).1

theorem setClientEntryUserPolicyEnabled_readable (readable : Readable lib db) {id enabled : Int}
    (returned : setClientEntryUserPolicyEnabled db id enabled now = .ok db') :
    Readable lib db' := by
  simp only [setClientEntryUserPolicyEnabled, bind_eq_ok, ensure_eq_ok, exists_const,
    pure_eq_ok] at returned
  obtain ⟨-, valid, -, rfl⟩ := returned
  refine readable.write (fun q member => Or.inr ?_) fun _ member => Or.inl member
  refine follows_updateWhere db.policies ?_ ?_ q member
  · exact fun _ => ⟨rfl, rfl⟩
  · exact fun _ _ => ⟨rfl, rfl, Or.inr valid⟩

private theorem decodes_empty :
    ∃ cs, decodeConditions lib.toStandardLibrary "[]" = .ok cs := by
  have normal : normalizeConditions lib.toStandardLibrary [] = .ok [] := rfl
  obtain ⟨text, written, decoded⟩ :=
    decodeConditions_encodeConditions lib.toStandardLibrary normal
  have brackets : String.ofList (Json.array []) = "[]" := by decide
  have empty : encodeConditions lib.toStandardLibrary [] = .ok (String.ofList (Json.array [])) :=
    rfl
  rw [empty, brackets] at written
  cases written
  exact ⟨[], decoded⟩

theorem createClientEntryUserPolicySplit_readable (readable : Readable lib db)
    {req : SplitCreateRequest} {new : NewGroups}
    (returned : createClientEntryUserPolicySplit lib db req newId new now = .ok db') :
    Readable lib db' := by
  obtain ⟨prepared, policies, groups, assignments, members, rows, normalized, positive, -, listed,
    -, -, -, memberships, rfl⟩ := createClientEntryUserPolicySplit_cases lib returned
  obtain ⟨-, -, enabled, known⟩ := preparedSplit_shown lib normalized
  refine readable.write ?_ ?_
  · intro q member
    rcases (listed q).mp member with before | rfl
    · exact Or.inr ⟨q, before, PolicyRow.Follows.refl q⟩
    · -- a new split rule has no conditions
      exact Or.inl ⟨positive, enabled, decodes_empty lib⟩
  · intro m member
    exact (memberships m member).imp_right (known (m.serverType, m.serverId))

theorem convertClientEntryUserPolicyToSplit_readable (readable : Readable lib db)
    {req : SplitConvertRequest} {pool : Except String (List BackupIP)} {new : NewGroups}
    (returned : convertClientEntryUserPolicyToSplit lib db req pool new now = .ok db') :
    Readable lib db' := by
  obtain ⟨policy, hostA, hostB, shifted, groups, assignments, users, -, -, -, -, -, shift, -, -,
    rfl⟩ := convertClientEntryUserPolicyToSplit_cases lib returned
  have before := readable.reorder (shiftVisibleSortsAfter_reordered shift)
  refine before.write (fun q member => Or.inr ?_) fun _ member => Or.inl member
  refine follows_updateWhere shifted.policies ?_ ?_ q member
  · exact fun _ => ⟨rfl, rfl⟩
  · exact fun _ _ => ⟨rfl, rfl, Or.inl rfl⟩

theorem divideLeaf_readable (readable : Readable lib db) {leaf : GroupRow} {position resolve : Int}
    {children : Children} (divided : divideLeaf db leaf position resolve children now = some db') :
    Readable lib db' := by
  obtain ⟨shifted, groups, shift, -, rfl⟩ := divideLeaf_cases divided
  have before := readable.reorder (shiftVisibleSortsAfter_reordered shift)
  refine before.write (fun q member => Or.inr ?_) fun _ member => Or.inl member
  refine follows_updateWhere shifted.policies ?_ ?_ q member
  · exact fun _ => ⟨rfl, rfl⟩
  · exact fun _ _ => ⟨rfl, rfl, Or.inl rfl⟩

theorem updateClientEntryUserPolicySplitGroupHost_readable (readable : Readable lib db)
    {req : GroupHostUpdateRequest}
    (returned : updateClientEntryUserPolicySplitGroupHost lib db req now = .ok db') :
    Readable lib db' := by
  have edited := updateClientEntryUserPolicySplitGroupHost_cases lib returned
  obtain ⟨leaf, name, host, policies, members, f, -, -, -, -, -, rows, same, known, rfl⟩ := edited
  refine readable.write ?_ known
  intro q member
  obtain ⟨p, before, rfl⟩ := (Table.mem_of_rows_map rows q).mp member
  exact Or.inr ⟨p, before, (same p).id, (same p).conditions, (same p).enabled⟩

theorem moveClientEntryUserPolicySplitGroupToRoot_readable (tree : Tree db)
    (readable : Readable lib db) {policyId groupId : Int}
    (returned : moveClientEntryUserPolicySplitGroupToRoot db policyId groupId now = .ok db') :
    Readable lib db' := by
  obtain ⟨target, parent, path, sort, moved, pruned, -, -, -, -, -, -, -, kept, rfl⟩ :=
    moveClientEntryUserPolicySplitGroupToRoot_cases tree returned
  have before : Readable lib pruned := by
    apply readable.shrink
    · intro q member
      rwa [kept.policies] at member
    · intro m member
      rwa [kept.members] at member
  refine before.write (fun q member => Or.inr ?_) fun _ member => Or.inl member
  refine follows_updateWhere pruned.policies ?_ ?_ q member
  · exact fun _ => ⟨rfl, rfl⟩
  · exact fun _ _ => ⟨rfl, rfl, Or.inl rfl⟩

theorem saveClientEntryCollection_readable (readable : Readable lib db)
    {req : CollectionSaveRequest}
    (returned : saveClientEntryCollection lib db req newId now = .ok db') : Readable lib db' := by
  obtain ⟨host, resolve, items, id, collections, policies, groups, collectionMembers, -, -, -, -, -,
    -, -, -, rows, -, -, rfl⟩ := saveClientEntryCollection_cases lib returned
  refine readable.write (fun q member => Or.inr ?_) fun _ member => Or.inl member
  obtain ⟨p, before, rfl⟩ := (Table.mem_of_rows_map rows q).mp member
  refine ⟨p, before, ?_⟩
  unfold policyWithEntry
  split
  · exact ⟨rfl, rfl, Or.inl rfl⟩
  · exact PolicyRow.Follows.refl p

theorem handle_readable (tree : Tree db) (readable : Readable lib db) {request : Request}
    (returned : handle lib db request = .ok db') : Readable lib db' := by
  have keep : db'.policies = db.policies → (∀ m ∈ db'.members, m ∈ db.members) →
      Readable lib db' := by
    intro same members
    refine readable.shrink ?_ members
    intro q member
    rwa [same] at member
  cases request with
  | savePolicy => exact saveClientEntryUserPolicy_readable lib readable returned
  | deletePolicy => exact deleteClientEntryUserPolicy_readable lib tree readable returned
  | setEnabled => exact setClientEntryUserPolicyEnabled_readable lib readable returned
  | createSplit => exact createClientEntryUserPolicySplit_readable lib readable returned
  | convert => exact convertClientEntryUserPolicyToSplit_readable lib readable returned
  | splitGroup =>
    obtain ⟨leaf, position, resolve, children, -, -, -, -, divided⟩ :=
      splitClientEntryUserPolicyGroup_cases lib returned
    exact divideLeaf_readable lib readable divided
  | autoSplit =>
    rcases processNextClientEntryAutoSplit_cases lib returned with
      rfl | ⟨leaf, position, resolve, children, -, -, -, -, divided⟩
    · exact readable
    · exact divideLeaf_readable lib readable divided
  | updateGroup =>
    exact updateClientEntryUserPolicySplitGroupHost_readable lib readable returned
  | moveToRoot =>
    exact moveClientEntryUserPolicySplitGroupToRoot_readable lib tree readable returned
  | sortGroups => exact readable.reorder (sortClientEntryUserPolicySplitGroups_reordered returned)
  | sortPolicies => exact readable.reorder (sortClientEntryUserPolicies_reordered returned)
  | sortRows =>
    exact readable.reorder (sortClientEntryUserPolicyRows_reordered tree.placed returned)
  | moveRows => exact readable.reorder (moveClientEntryVisibleRows_reordered tree.placed returned)
  | saveCollection => exact saveClientEntryCollection_readable lib readable returned
  | deleteCollection =>
    simp only [handle, deleteClientEntryCollection, bind_eq_ok, ensure_eq_ok, exists_const,
      pure_eq_ok] at returned
    obtain ⟨-, -, rfl⟩ := returned
    exact keep rfl fun _ member => member
  | removeMember =>
    simp only [handle, removeClientEntryCollectionMember, bind_eq_ok, ensure_eq_ok, exists_const,
      pure_eq_ok] at returned
    obtain ⟨-, -, -, rfl⟩ := returned
    exact keep rfl fun _ member => member
  | deleteServer =>
    cases returned
    exact keep rfl fun m member => ((Table.mem_deleteWhere _ _ m).mp member).1
  | deleteUsers | outside =>
    cases returned
    exact keep rfl fun _ member => member

theorem run_readable (requests : List Request) :
    Tree (Transition.run (step lib) emptyRuleBase requests) ∧
      Readable lib (Transition.run (step lib) emptyRuleBase requests) := by
  apply Transition.run_invariant (I := fun db => Tree db ∧ Readable lib db) (G := fun _ _ => True)
    _ emptyRuleBase requests ⟨tree_empty, readable_empty lib⟩ (Transition.along_true _ _)
  intro db request both _
  refine ⟨step_tree lib both.1 request, ?_⟩
  exact commit_cases _ _ both.2 fun _ returned => handle_readable lib both.1 both.2 returned

end

end ForestPanel.ClientEntry
