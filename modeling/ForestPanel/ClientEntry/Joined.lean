import ForestPanel.ClientEntry.Growth
import ForestPanel.ClientEntry.Moving

/-!
# Members share the entry of their collection

The host of a collection is stored on it and on every member. `Collected` says that the
copies agree: an operation that could make them differ is refused, takes the member out of
its collection, or writes all of them.
-/
namespace ForestPanel.ClientEntry

open Outcome Relational

section

variable {db db' : RuleBase}

/-- A rule that got the entry of its collection, when it is among the items. -/
def policyWithEntry (entryHost : String) (resolve now : Int) (items : List Item) (p : PolicyRow) :
    PolicyRow :=
  if Item.policy p.id ∈ items then
    { p with entryHost, resolveEntryHost := resolve, updatedAt := now }
  else p

def groupWithEntry (entryHost : String) (resolve now : Int) (items : List Item) (g : GroupRow) :
    GroupRow :=
  if Item.splitGroup g.id ∈ items then
    { g with entryHost, resolveEntryHost := some resolve, updatedAt := now }
  else g

theorem writeMembers_cases {collectionId : Int} {entryHost : String} {resolve now : Int}
    {items : List Item}
    (written : writeMembers collectionId entryHost resolve now db items = some db') :
    db'.policies.rows = db.policies.rows.map (policyWithEntry entryHost resolve now items) ∧
      db'.groups.rows = db.groups.rows.map (groupWithEntry entryHost resolve now items) ∧
      db'.collectionMembers.rows =
        db.collectionMembers.rows ++ items.map (CollectionMemberRow.mk collectionId) ∧
      db' = { db with
        policies := db'.policies
        groups := db'.groups
        collectionMembers := db'.collectionMembers } := by
  induction items generalizing db with
  | nil =>
    obtain rfl := Option.some.inj written
    refine ⟨?_, ?_, (List.append_nil _).symm, rfl⟩
    · exact (List.map_id'' (fun p => if_neg List.not_mem_nil) _).symm
    · exact (List.map_id'' (fun g => if_neg List.not_mem_nil) _).symm
  | cons item items ih =>
    obtain ⟨collectionMembers, inserted, rest⟩ := Option.bind_eq_some_iff.mp written
    obtain ⟨listed, -, -⟩ := (Table.insert?_eq_some _ _ _).mp inserted
    obtain ⟨policies, groups, members, others⟩ := ih rest
    cases item with
    | policy id =>
      refine ⟨?_, ?_, ?_, others⟩
      · rw [policies]
        simp only [writeEntry, Table.rows_updateWhere, List.map_map]
        apply List.map_congr_left
        intro p _
        by_cases same : p.id = id
        · by_cases again : Item.policy id ∈ items <;> simp [policyWithEntry, same, again]
        · simp [policyWithEntry, same]
      · rw [groups]
        apply List.map_congr_left
        intro g _
        simp [groupWithEntry]
      · rw [members]
        simp only [writeEntry, listed, List.append_assoc, List.singleton_append, List.map_cons]
    | splitGroup id =>
      refine ⟨?_, ?_, ?_, others⟩
      · rw [policies]
        apply List.map_congr_left
        intro p _
        simp [policyWithEntry]
      · rw [groups]
        simp only [writeEntry, Table.rows_updateWhere, List.map_map]
        apply List.map_congr_left
        intro g _
        by_cases same : g.id = id
        · by_cases again : Item.splitGroup id ∈ items <;> simp [groupWithEntry, same, again]
        · simp [groupWithEntry, same]
      · rw [members]
        simp only [writeEntry, listed, List.append_assoc, List.singleton_append, List.map_cons]

theorem normalizeCollection_cases (lib : EntryLibrary) {req prepared : CollectionSaveRequest}
    (normalized : normalizeClientEntryCollectionSaveRequest lib req = .ok prepared) :
    Shown prepared.entryHost ∧ prepared.items ≠ [] := by
  simp only [normalizeClientEntryCollectionSaveRequest, bind_eq_ok, mapError_eq_ok, ensure_eq_ok,
    exists_const, pure_eq_ok] at normalized
  obtain ⟨-, host, accepted, -, -, ⟨enough, -⟩, -, rfl⟩ := normalized
  refine ⟨normalizeHost_shown lib accepted, ?_⟩
  intro empty
  have sorted := (List.perm_insertionSort (fun a b => itemBefore a b = true) req.items).length_eq
  have none : (req.items.insertionSort fun a b => itemBefore a b = true).length = 0 :=
    congrArg List.length empty
  split at enough <;> omega

private def rewrittenCollection (prepared : CollectionSaveRequest) (c : CollectionRow) :
    CollectionRow :=
  if decide (c.id = prepared.id) = true then
    { c with
      name := prepared.name
      entryHost := prepared.entryHost
      resolveEntryHost := some prepared.resolveEntryHost
      version := c.version + 1 }
  else c

theorem saveClientEntryCollection_cases (lib : EntryLibrary) {req : CollectionSaveRequest}
    {newId now : Int} (returned : saveClientEntryCollection lib db req newId now = .ok db') :
    ∃ host resolve items id collections policies groups collectionMembers,
      Shown host ∧ items ≠ [] ∧ (∀ item ∈ items, canJoin db item = true) ∧
      (∀ item ∈ items, ∀ m ∈ db.collectionMembers, m.item = item →
        m.collectionId = id ∨ m.collectionId = 0) ∧
      (0 < id ∨ ∃ c ∈ db.collections, c.id = id) ∧
      (∃ c ∈ collections, c.id = id) ∧
      (∀ c ∈ collections, c.id = id → c.entryHost = host ∧ c.resolveEntryHost = some resolve) ∧
      (∀ c, c.id ≠ id → (c ∈ collections ↔ c ∈ db.collections)) ∧
      policies.rows = db.policies.rows.map (policyWithEntry host resolve now items) ∧
      groups.rows = db.groups.rows.map (groupWithEntry host resolve now items) ∧
      (∀ m, m ∈ collectionMembers ↔ (m ∈ db.collectionMembers ∧ m.collectionId ≠ id) ∨
        (m.collectionId = id ∧ m.item ∈ items)) ∧
      db' = { db with policies, groups, collections, collectionMembers } := by
  simp only [saveClientEntryCollection, bind_eq_ok, ensure_eq_ok, exists_const,
    require_eq_ok] at returned
  obtain ⟨prepared, normalized, current, joins, alone, ⟨id, between⟩, saved, written⟩ := returned
  obtain ⟨shown, nonempty⟩ := normalizeCollection_cases lib normalized
  obtain ⟨policies, groups, members, others⟩ := writeMembers_cases written
  have listed : ∀ m, m ∈ db'.collectionMembers ↔
      (m ∈ between.collectionMembers ∧ m.collectionId ≠ id) ∨
        (m.collectionId = id ∧ m.item ∈ prepared.items) := by
    intro m
    rw [Table.mem_def, members, List.mem_append]
    apply or_congr
    · exact (Table.mem_deleteWhere _ _ _).trans (and_congr_right' decide_eq_false_iff_not)
    · rw [List.mem_map]
      constructor
      · rintro ⟨item, inside, rfl⟩
        exact ⟨rfl, inside⟩
      · rintro ⟨rfl, inside⟩
        exact ⟨m.item, inside, rfl⟩
  unfold writeCollection at saved
  split at saved
  next isNew =>
    simp only [bind_eq_ok, ensure_eq_ok, exists_const, require_eq_ok, pure_eq_ok,
      Prod.mk.injEq] at saved
    obtain ⟨positive, collections, inserted, rfl, rfl⟩ := saved
    obtain ⟨-, fresh, -⟩ := (Table.insert?_eq_some _ _ _).mp inserted
    have grown := Table.mem_of_insert? inserted
    refine ⟨_, prepared.resolveEntryHost, prepared.items, newId, collections, _, _, _, shown,
      nonempty, joins, ?_, Or.inl positive, ⟨_, (grown _).mpr (Or.inr rfl), rfl⟩, ?_, ?_, policies,
      groups, listed, others⟩
    · intro item inside m member same
      exact Or.inr ((alone item inside m member same).trans isNew)
    · intro c member isId
      rcases (grown c).mp member with before | rfl
      · exact absurd isId (fresh c before)
      · exact ⟨rfl, rfl⟩
    · intro c other
      rw [grown]
      apply or_iff_left
      rintro rfl
      exact other rfl
  next isOld =>
    have rows : between.collections.rows =
        db.collections.rows.map (rewrittenCollection prepared) := by
      cases saved
      rfl
    have image := Table.mem_of_rows_map rows
    cases saved
    obtain ⟨c, there, isId, -⟩ := current.resolve_left isOld
    refine ⟨_, prepared.resolveEntryHost, prepared.items, prepared.id, _, _, _, _, shown, nonempty,
      joins, ?_, Or.inr ⟨c, there, isId⟩, ?_, ?_, ?_, policies, groups, listed, others⟩
    · intro item inside m member same
      exact Or.inl (alone item inside m member same)
    · refine ⟨_, (image _).mpr ⟨c, there, rfl⟩, ?_⟩
      rw [rewrittenCollection, if_pos (decide_eq_true isId)]
      exact isId
    · intro c member isId
      obtain ⟨old, -, rfl⟩ := (image _).mp member
      unfold rewrittenCollection at isId ⊢
      split at isId
      next chosen => rw [if_pos chosen]; exact ⟨rfl, rfl⟩
      next other => exact absurd (decide_eq_true isId) other
    · intro c other
      refine (image _).trans ?_
      unfold rewrittenCollection
      constructor
      · rintro ⟨old, member, rfl⟩
        split at other
        next chosen => exact absurd (of_decide_eq_true chosen) other
        next unchanged => rwa [if_neg unchanged]
      · intro member
        exact ⟨c, member, if_neg (by simpa using other)⟩

theorem saveClientEntryCollection_tree (lib : EntryLibrary) (tree : Tree db)
    {req : CollectionSaveRequest} {newId now : Int}
    (returned : saveClientEntryCollection lib db req newId now = .ok db') : Tree db' := by
  obtain ⟨host, resolve, items, id, collections, policies, groups, collectionMembers, shown, -,
    joins, -, -, -, -, -, rules, leaves, -, rfl⟩ := saveClientEntryCollection_cases lib returned
  have rows : groups.rows = db.groups.rows.map fun g =>
      if decide (Item.splitGroup g.id ∈ items) = true then
        { g with entryHost := host, resolveEntryHost := some resolve, updatedAt := now }
      else g := by
    rw [leaves]
    apply List.map_congr_left
    intro g _
    simp only [groupWithEntry, decide_eq_true_eq]
  refine tree.edit (edited_of_update tree rows (fun _ => ⟨rfl, rfl, rfl, rfl⟩) ?_) ?_
    fun _ member => member
  · intro g member chosen
    obtain ⟨g', listed, same, -, leaf⟩ := of_decide_eq_true (joins _ (of_decide_eq_true chosen))
    rw [Fitting, if_pos leaf]
    exact ⟨shown, (tree.leaf g member leaf).2⟩
  · intro p member split
    refine ⟨policyWithEntry host resolve now items p,
      (Table.mem_of_rows_map rules _).mpr ⟨p, member, rfl⟩, ?_⟩
    unfold policyWithEntry
    split
    · exact ⟨rfl, split⟩
    · exact ⟨rfl, split⟩

theorem deleteClientEntryCollection_tree (tree : Tree db) {id version : Int}
    (returned : deleteClientEntryCollection db id version = .ok db') : Tree db' := by
  simp only [deleteClientEntryCollection, bind_eq_ok, ensure_eq_ok, exists_const,
    pure_eq_ok] at returned
  obtain ⟨-, -, rfl⟩ := returned
  exact tree.congr rfl (KeepsSplit.refl db) fun _ member => member

theorem removeClientEntryCollectionMember_tree (tree : Tree db) {id version : Int} {item : Item}
    (returned : removeClientEntryCollectionMember db id version item = .ok db') : Tree db' := by
  simp only [removeClientEntryCollectionMember, bind_eq_ok, ensure_eq_ok, exists_const,
    pure_eq_ok] at returned
  obtain ⟨-, -, -, rfl⟩ := returned
  exact tree.congr rfl (KeepsSplit.refl db) fun _ member => member

def Shares (db : RuleBase) (c : CollectionRow) : Item → Prop
  | .policy id => ∃ p ∈ db.policies, p.id = id ∧ p.mode = .standard ∧ p.action = .override ∧
      p.entryHost = c.entryHost ∧ ∀ resolve ∈ c.resolveEntryHost, p.resolveEntryHost = resolve
  | .splitGroup id => ∃ g ∈ db.groups, g.id = id ∧ isLeaf db.groups g.id = true ∧
      g.entryHost = c.entryHost ∧
      ∀ resolve ∈ c.resolveEntryHost, g.resolveEntryHost = some resolve

structure Collected (db : RuleBase) : Prop where
  positive : ∀ c ∈ db.collections, 0 < c.id
  member : ∀ m ∈ db.collectionMembers, ∃ c ∈ db.collections, c.id = m.collectionId ∧
    Shares db c m.item
  inhabited : ∀ c ∈ db.collections, ∃ m ∈ db.collectionMembers, m.collectionId = c.id

theorem collected_empty : Collected emptyRuleBase := by
  constructor <;> (intro row member; cases member)

structure PolicyRow.KeepsEntry (p q : PolicyRow) : Prop where
  id : q.id = p.id
  mode : q.mode = p.mode
  action : q.action = p.action
  entryHost : q.entryHost = p.entryHost
  resolveEntryHost : q.resolveEntryHost = p.resolveEntryHost

structure GroupRow.KeepsEntry (g h : GroupRow) : Prop where
  id : h.id = g.id
  entryHost : h.entryHost = g.entryHost
  resolveEntryHost : h.resolveEntryHost = g.resolveEntryHost

structure KeepsEntries (db db' : RuleBase) (stays : Item → Prop) : Prop where
  policies : ∀ p ∈ db.policies, stays (.policy p.id) → ∃ p' ∈ db'.policies, p.KeepsEntry p'
  groups : ∀ g ∈ db.groups, isLeaf db.groups g.id = true → stays (.splitGroup g.id) →
    ∃ g' ∈ db'.groups, g.KeepsEntry g' ∧ isLeaf db'.groups g'.id = true

theorem KeepsEntries.shares {stays : Item → Prop} (keeps : KeepsEntries db db' stays)
    {c c' : CollectionRow} (host : c'.entryHost = c.entryHost)
    (resolve : c'.resolveEntryHost = c.resolveEntryHost) {item : Item} (stay : stays item)
    (shares : Shares db c item) : Shares db' c' item := by
  cases item with
  | policy id =>
    obtain ⟨p, member, rfl, standard, override, sameHost, sameResolve⟩ := shares
    obtain ⟨p', member', kept⟩ := keeps.policies p member stay
    refine ⟨p', member', kept.id, kept.mode.trans standard, kept.action.trans override, ?_, ?_⟩
    · rw [kept.entryHost, host, sameHost]
    · intro flag set
      rw [kept.resolveEntryHost]
      exact sameResolve flag (resolve ▸ set)
  | splitGroup id =>
    obtain ⟨g, member, rfl, leaf, sameHost, sameResolve⟩ := shares
    obtain ⟨g', member', kept, leaf'⟩ := keeps.groups g member leaf stay
    refine ⟨g', member', kept.id, leaf', ?_, ?_⟩
    · rw [kept.entryHost, host, sameHost]
    · intro flag set
      rw [kept.resolveEntryHost]
      exact sameResolve flag (resolve ▸ set)

theorem KeepsEntries.trans {db'' : RuleBase} {stays : Item → Prop}
    (first : KeepsEntries db db' stays) (second : KeepsEntries db' db'' stays) :
    KeepsEntries db db'' stays := by
  constructor
  · intro p member stay
    obtain ⟨p', member', kept⟩ := first.policies p member stay
    obtain ⟨p'', member'', kept'⟩ := second.policies p' member' (kept.id ▸ stay)
    exact ⟨p'', member'', kept'.id.trans kept.id, kept'.mode.trans kept.mode,
      kept'.action.trans kept.action, kept'.entryHost.trans kept.entryHost,
      kept'.resolveEntryHost.trans kept.resolveEntryHost⟩
  · intro g member leaf stay
    obtain ⟨g', member', kept, leaf'⟩ := first.groups g member leaf stay
    obtain ⟨g'', member'', kept', leaf''⟩ := second.groups g' member' leaf' (kept.id ▸ stay)
    exact ⟨g'', member'', ⟨kept'.id.trans kept.id, kept'.entryHost.trans kept.entryHost,
      kept'.resolveEntryHost.trans kept.resolveEntryHost⟩, leaf''⟩

theorem Reordered.keepsEntries (reordered : Reordered db db') (stays : Item → Prop) :
    KeepsEntries db db' stays := by
  constructor
  · intro p member _
    obtain ⟨p', member', alike⟩ := reordered.symm.policy member
    exact ⟨p', member', alike.id, alike.mode, alike.action, alike.entryHost,
      alike.resolveEntryHost⟩
  · intro g member leaf _
    obtain ⟨g', member', alike⟩ := reordered.symm.group member
    refine ⟨g', member', ⟨alike.id, alike.entryHost, alike.resolveEntryHost⟩, ?_⟩
    rw [reordered.isLeaf, alike.id]
    exact leaf

theorem Collected.keep (collected : Collected db) (collections : db'.collections = db.collections)
    (members : db'.collectionMembers = db.collectionMembers)
    (kept : ∀ m ∈ db.collectionMembers, ∀ c ∈ db.collections, c.id = m.collectionId →
      Shares db c m.item → Shares db' c m.item) : Collected db' := by
  refine ⟨collections ▸ collected.positive, ?_, ?_⟩
  · intro m member
    rw [members] at member
    obtain ⟨c, listed, same, shares⟩ := collected.member m member
    exact ⟨c, collections ▸ listed, same, kept m member c listed same shares⟩
  · rw [collections, members]
    exact collected.inhabited

theorem Collected.keepAll (collected : Collected db)
    (collections : db'.collections = db.collections)
    (members : db'.collectionMembers = db.collectionMembers)
    (keeps : KeepsEntries db db' fun _ => True) : Collected db' :=
  collected.keep collections members fun _ _ _ _ _ shares => keeps.shares rfl rfl trivial shares

theorem Collected.detach (collected : Collected db) {gone : Item → Bool}
    (collections : db'.collections = (detachClientEntryCollectionMembers db gone).collections)
    (members : ∀ m, m ∈ db'.collectionMembers ↔ m ∈ db.collectionMembers ∧ gone m.item = false)
    (keeps : KeepsEntries db db' fun item => gone item = false) : Collected db' := by
  have image : ∀ c', c' ∈ db'.collections ↔
      (∃ c ∈ db.collections, (if decide (c.id ∈ (db.collectionMembers.rows.filter fun m =>
        gone m.item).map CollectionMemberRow.collectionId) = true
        then { c with version := c.version + 1 } else c) = c') ∧
      ∃ m ∈ db'.collectionMembers, m.collectionId = c'.id := by
    intro c'
    rw [collections]
    refine (Table.mem_deleteWhere _ _ _).trans (and_congr (Table.mem_updateWhere _ _ _ _ _) ?_)
    simp only [decide_not, Bool.not_eq_eq_eq_not, Bool.not_false, decide_eq_true_eq]
    apply exists_congr
    intro m
    rw [members]
    exact and_congr_left' (Table.mem_deleteWhere _ _ _)
  refine ⟨?_, ?_, fun c member => ((image c).mp member).2⟩
  · intro c' member
    obtain ⟨⟨c, listed, rfl⟩, -⟩ := (image c').mp member
    split
    · exact collected.positive c listed
    · exact collected.positive c listed
  · intro m member
    obtain ⟨before, stays⟩ := (members m).mp member
    obtain ⟨c, listed, same, shares⟩ := collected.member m before
    refine ⟨_, (image _).mpr ⟨⟨c, listed, rfl⟩, m, member, ?_⟩, ?_, ?_⟩
    · split
      · exact same.symm
      · exact same.symm
    · split
      · exact same
      · exact same
    · split
      · exact keeps.shares rfl rfl stays shares
      · exact keeps.shares rfl rfl stays shares

end

end ForestPanel.ClientEntry
