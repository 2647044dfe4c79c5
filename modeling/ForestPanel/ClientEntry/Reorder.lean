import ForestPanel.ClientEntry.Collections
import ForestPanel.Lib.Transition

/-!
# What ordering leaves alone

The statements that write the order change positions and edit times only: rows keep
everything else, and the other tables stay as they are.
-/
namespace ForestPanel.ClientEntry

open Outcome Relational

/-- A rule without its position and edit time. -/
def PolicyRow.core (p : PolicyRow) : PolicyRow := { p with sort := 0, updatedAt := 0 }

/-- A group without its positions and edit time; it may have a place in the order. -/
def GroupRow.core (g : GroupRow) : GroupRow :=
  { g with sort := 0, globalSort := g.globalSort.map fun _ => 0, updatedAt := 0 }

structure PolicyRow.Alike (p q : PolicyRow) : Prop where
  id : p.id = q.id
  mode : p.mode = q.mode
  action : p.action = q.action
  conditions : p.conditions = q.conditions
  entryHost : p.entryHost = q.entryHost
  resolveEntryHost : p.resolveEntryHost = q.resolveEntryHost
  enabled : p.enabled = q.enabled

structure GroupRow.Alike (g h : GroupRow) : Prop where
  id : g.id = h.id
  policyId : g.policyId = h.policyId
  parentId : g.parentId = h.parentId
  path : g.path = h.path
  entryHost : g.entryHost = h.entryHost
  placed : g.globalSort.isSome = h.globalSort.isSome
  resolveEntryHost : g.resolveEntryHost = h.resolveEntryHost

theorem PolicyRow.alike_of_core {p q : PolicyRow} (same : p.core = q.core) : p.Alike q := by
  simp only [PolicyRow.core, PolicyRow.mk.injEq] at same
  obtain ⟨id, -, -, mode, action, conditions, host, resolve, -, enabled, -, -⟩ := same
  exact ⟨id, mode, action, conditions, host, resolve, enabled⟩

theorem GroupRow.alike_of_core {g h : GroupRow} (same : g.core = h.core) : g.Alike h := by
  simp only [GroupRow.core, GroupRow.mk.injEq] at same
  obtain ⟨id, policyId, parentId, -, path, host, -, placed, resolve, -⟩ := same
  refine ⟨id, policyId, parentId, path, host, ?_, resolve⟩
  have shown := congrArg Option.isSome placed
  rwa [Option.isSome_map, Option.isSome_map] at shown

structure Reordered (db db' : RuleBase) : Prop where
  policies : db'.policies.rows.map PolicyRow.core = db.policies.rows.map PolicyRow.core
  groups : db'.groups.rows.map GroupRow.core = db.groups.rows.map GroupRow.core
  assignments : db'.assignments = db.assignments
  members : db'.members = db.members
  collections : db'.collections = db.collections
  collectionMembers : db'.collectionMembers = db.collectionMembers
  users : db'.users = db.users
  activity : db'.activity = db.activity
  servers : db'.servers = db.servers

theorem Reordered.refl (db : RuleBase) : Reordered db db :=
  ⟨rfl, rfl, rfl, rfl, rfl, rfl, rfl, rfl, rfl⟩

theorem Reordered.trans {db db' db'' : RuleBase} (first : Reordered db db')
    (second : Reordered db' db'') : Reordered db db'' :=
  ⟨second.policies.trans first.policies, second.groups.trans first.groups,
    second.assignments.trans first.assignments, second.members.trans first.members,
    second.collections.trans first.collections,
    second.collectionMembers.trans first.collectionMembers, second.users.trans first.users,
    second.activity.trans first.activity, second.servers.trans first.servers⟩

theorem Reordered.symm {db db' : RuleBase} (reordered : Reordered db db') : Reordered db' db :=
  ⟨reordered.policies.symm, reordered.groups.symm, reordered.assignments.symm,
    reordered.members.symm, reordered.collections.symm, reordered.collectionMembers.symm,
    reordered.users.symm, reordered.activity.symm, reordered.servers.symm⟩

private theorem mem_of_map_eq {α β : Type} {f : α → β} {l m : List α} (same : m.map f = l.map f)
    {b : α} (member : b ∈ m) : ∃ a ∈ l, f a = f b := by
  have image : f b ∈ l.map f := same ▸ List.mem_map_of_mem member
  exact List.mem_map.mp image

theorem Reordered.policy {db db' : RuleBase} (reordered : Reordered db db') {p' : PolicyRow}
    (member : p' ∈ db'.policies) : ∃ p ∈ db.policies, p.Alike p' := by
  obtain ⟨p, listed, core⟩ := mem_of_map_eq reordered.policies member
  exact ⟨p, listed, PolicyRow.alike_of_core core⟩

theorem Reordered.group {db db' : RuleBase} (reordered : Reordered db db') {g' : GroupRow}
    (member : g' ∈ db'.groups) : ∃ g ∈ db.groups, g.Alike g' := by
  obtain ⟨g, listed, core⟩ := mem_of_map_eq reordered.groups member
  exact ⟨g, listed, GroupRow.alike_of_core core⟩

theorem Reordered.isLeaf {db db' : RuleBase} (reordered : Reordered db db') (id : Int) :
    isLeaf db'.groups id = isLeaf db.groups id := by
  have parents : ∀ {a b : RuleBase}, Reordered a b → ClientEntry.isLeaf a.groups id = true →
      ClientEntry.isLeaf b.groups id = true := by
    intro a b same leaf
    rw [isLeaf_iff] at leaf ⊢
    intro child member
    obtain ⟨before, listed, alike⟩ := same.group member
    rw [← alike.parentId]
    exact leaf before listed
  rw [Bool.eq_iff_iff]
  exact ⟨parents reordered.symm, parents reordered⟩

private theorem map_updateWhere {α β κ ν : Type} {key : α → κ} {uniq : α → ν} {g : α → β}
    (t : Table key uniq) (p : α → Bool) (f : α → α) (hf : Preserves key uniq f)
    (same : ∀ a ∈ t, p a = true → g (f a) = g a) :
    (t.updateWhere p f hf).rows.map g = t.rows.map g := by
  rw [Table.rows_updateWhere, List.map_map]
  apply List.map_congr_left
  intro a member
  rw [Function.comp_apply]
  split
  next chosen => exact same a member chosen
  next => rfl

theorem reordered_policies (db : RuleBase) (p : PolicyRow → Bool) (f : PolicyRow → PolicyRow)
    (hf : Preserves PolicyRow.id PolicyRow.id f) (same : ∀ p, (f p).core = p.core) :
    Reordered db { db with policies := db.policies.updateWhere p f hf } :=
  ⟨map_updateWhere db.policies p f hf fun p _ _ => same p, rfl, rfl, rfl, rfl, rfl, rfl, rfl, rfl⟩

theorem reordered_groups (db : RuleBase) (p : GroupRow → Bool) (f : GroupRow → GroupRow)
    (hf : Preserves GroupRow.id (fun g => (g.policyId, g.path)) f)
    (same : ∀ g ∈ db.groups, p g = true → (f g).core = g.core) :
    Reordered db { db with groups := db.groups.updateWhere p f hf } :=
  ⟨rfl, map_updateWhere db.groups p f hf same, rfl, rfl, rfl, rfl, rfl, rfl, rfl⟩

theorem syncSplitPolicySorts_reordered {db db' : RuleBase}
    (synced : syncSplitPolicySorts db = some db') : Reordered db db' := by
  obtain ⟨-, rfl⟩ := checked_eq_some.mp synced
  exact reordered_policies db _ _ _ fun _ => rfl

theorem shiftVisibleSortsAfter_reordered {db db' : RuleBase} {position delta : Int}
    (shifted : shiftVisibleSortsAfter db position delta = some db') : Reordered db db' := by
  obtain ⟨moved, statement, synced⟩ := Option.bind_eq_some_iff.mp shifted
  obtain ⟨-, rfl⟩ := checked_eq_some.mp statement
  have policies := reordered_policies db (fun p => p.mode ≠ .split && position < p.sort)
    (fun p => { p with sort := p.sort + delta }) (fun _ => ⟨rfl, rfl⟩) fun _ => rfl
  have groups := reordered_groups
    { db with
      policies := db.policies.updateWhere
        (fun p => p.mode ≠ .split && position < p.sort)
        (fun p => { p with sort := p.sort + delta })
        fun _ => ⟨rfl, rfl⟩ }
    (fun g => g.globalSort.any fun s => position < s)
    (fun g => { g with globalSort := g.globalSort.map fun s => s + delta })
    (fun _ => ⟨rfl, rfl⟩) fun g _ _ => by simp [GroupRow.core, Function.comp_def]
  exact (policies.trans groups).trans (syncSplitPolicySorts_reordered synced)

variable {now : Int} {items : List Item} {ids : List Int}

private theorem persistFrom_reordered {db db' : RuleBase} {index : Nat}
    (placed : ∀ g ∈ db.groups, isLeaf db.groups g.id = true → g.globalSort.isSome)
    (persisted : persistFrom now db index items = some db') : Reordered db db' := by
  induction items generalizing db index with
  | nil =>
    obtain rfl := Option.some.inj persisted
    exact Reordered.refl db
  | cons item items ih =>
    cases item with
    | policy id =>
      simp only [persistFrom, Option.ite_none_right_eq_some] at persisted
      obtain ⟨-, persisted⟩ := persisted
      obtain ⟨written, statement, rest⟩ := Option.bind_eq_some_iff.mp persisted
      obtain ⟨-, rfl⟩ := checked_eq_some.mp statement
      have first := reordered_policies db (fun p => p.id = id)
        (fun p => { p with sort := (index + 1) * clientEntryRuleSortStep, updatedAt := now })
        (fun _ => ⟨rfl, rfl⟩) fun _ => rfl
      exact first.trans (ih placed rest)
    | splitGroup id =>
      simp only [persistFrom, Option.ite_none_right_eq_some] at persisted
      obtain ⟨⟨leaf, listed, rfl, -, hasNone⟩, persisted⟩ := persisted
      obtain ⟨written, statement, rest⟩ := Option.bind_eq_some_iff.mp persisted
      obtain ⟨-, rfl⟩ := checked_eq_some.mp statement
      have first := reordered_groups db (fun g => g.id = leaf.id)
        (fun g => { g with
          globalSort := some ((index + 1) * clientEntryRuleSortStep)
          updatedAt := now }) (fun _ => ⟨rfl, rfl⟩) (by
          intro g member chosen
          obtain rfl := db.groups.eq_of_key member listed (of_decide_eq_true chosen)
          obtain ⟨old, there⟩ := Option.isSome_iff_exists.mp (placed g member hasNone)
          simp [GroupRow.core, there])
      refine first.trans (ih ?_ rest)
      intro g' member leaf'
      rw [first.isLeaf] at leaf'
      obtain ⟨g, old, alike⟩ := first.group member
      rw [← alike.placed]
      rw [← alike.id] at leaf'
      exact placed g old leaf'

theorem persistClientEntryVisibleOrder_reordered {db db' : RuleBase}
    (placed : ∀ g ∈ db.groups, isLeaf db.groups g.id = true → g.globalSort.isSome)
    (persisted : persistClientEntryVisibleOrder db items now = some db') : Reordered db db' := by
  obtain ⟨numbered, first, synced⟩ := Option.bind_eq_some_iff.mp persisted
  exact (persistFrom_reordered placed first).trans (syncSplitPolicySorts_reordered synced)

theorem sortPoliciesFrom_reordered {db db' : RuleBase} {index : Nat}
    (sorted : sortPoliciesFrom now db index ids = some db') : Reordered db db' := by
  induction ids generalizing db index with
  | nil =>
    obtain rfl := Option.some.inj sorted
    exact Reordered.refl db
  | cons id ids ih =>
    obtain ⟨written, statement, rest⟩ := Option.bind_eq_some_iff.mp sorted
    obtain ⟨-, rfl⟩ := checked_eq_some.mp statement
    have first := reordered_policies db (fun p => p.id = id)
      (fun p => { p with sort := (index + 1) * clientEntryRuleSortStep, updatedAt := now })
      (fun _ => ⟨rfl, rfl⟩) fun _ => rfl
    exact first.trans (ih rest)

theorem sortGroupsFrom_core (now : Int) (ids : List Int) (groups : GroupTable) (index : Nat) :
    (sortGroupsFrom now groups index ids).rows.map GroupRow.core =
      groups.rows.map GroupRow.core := by
  induction ids generalizing groups index with
  | nil => rfl
  | cons id ids ih =>
    rw [sortGroupsFrom, ih]
    exact map_updateWhere groups _ _ _ fun _ _ _ => rfl

section

variable {db db' : RuleBase}

theorem sortClientEntryUserPolicies_reordered
    (returned : sortClientEntryUserPolicies db ids now = .ok db') : Reordered db db' := by
  simp only [sortClientEntryUserPolicies, bind_eq_ok, ensure_eq_ok, exists_const,
    require_eq_ok] at returned
  exact sortPoliciesFrom_reordered returned.2.2.2

theorem sortClientEntryUserPolicyRows_reordered
    (placed : ∀ g ∈ db.groups, isLeaf db.groups g.id = true → g.globalSort.isSome)
    (returned : sortClientEntryUserPolicyRows db items now = .ok db') : Reordered db db' := by
  simp only [sortClientEntryUserPolicyRows, bind_eq_ok, ensure_eq_ok, exists_const,
    require_eq_ok] at returned
  exact persistClientEntryVisibleOrder_reordered placed returned.2.2.2

theorem moveClientEntryVisibleRows_reordered {digest : List OrderRow → String}
    {req : OrderMoveRequest}
    (placed : ∀ g ∈ db.groups, isLeaf db.groups g.id = true → g.globalSort.isSome)
    (returned : moveClientEntryVisibleRows digest db req now = .ok db') : Reordered db db' := by
  simp only [moveClientEntryVisibleRows, bind_eq_ok] at returned
  obtain ⟨⟨ordered, changed⟩, -, returned⟩ := returned
  dsimp only at returned
  split at returned
  · rw [require_eq_ok] at returned
    exact persistClientEntryVisibleOrder_reordered placed returned
  · rw [pure_eq_ok] at returned
    rw [← returned]
    exact Reordered.refl db

theorem sortClientEntryUserPolicySplitGroups_reordered {policyId : Int}
    (returned : sortClientEntryUserPolicySplitGroups db policyId ids now = .ok db') :
    Reordered db db' := by
  simp only [sortClientEntryUserPolicySplitGroups, bind_eq_ok, ensure_eq_ok, exists_const,
    pure_eq_ok] at returned
  obtain ⟨-, -, -, -, rfl⟩ := returned
  have policies := reordered_policies db (fun p => p.id = policyId && p.mode = .split)
    (fun p => { p with updatedAt := now }) (fun _ => ⟨rfl, rfl⟩) fun _ => rfl
  exact { policies with groups := sortGroupsFrom_core now ids db.groups 0 }

end

end ForestPanel.ClientEntry
