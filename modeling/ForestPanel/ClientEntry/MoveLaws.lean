import ForestPanel.ClientEntry.Save

/-!
# What a move of rules does

The plan cuts the moved rows out and puts them behind the anchor. The rows are then numbered as
planned, and rows with different numbers are loaded in the order of these.
-/
namespace ForestPanel.ClientEntry

open Relational Outcome

/-! ## The plan -/

variable {req : OrderMoveRequest} {digest : List OrderRow → String} {n now : Int}

section

variable {rows : List OrderRow} {items : List Item}

private theorem row_of_item (distinct : (rows.map OrderRow.item).Nodup) {a b : OrderRow}
    (ha : a ∈ rows) (hb : b ∈ rows) (same : a.item = b.item) : a = b :=
  List.inj_on_of_nodup_map distinct ha hb same

private theorem mapM_find (known : ∀ item ∈ items, ∃ r ∈ rows, r.item = item) (e : String) :
    ∃ moved, items.mapM (fun item => require (rows.find? fun r => r.item = item) e) = .ok moved ∧
      moved.map OrderRow.item = items ∧ ∀ r ∈ moved, r ∈ rows := by
  induction items with
  | nil => exact ⟨[], rfl, rfl, fun _ member => (List.not_mem_nil member).elim⟩
  | cons item items ih =>
    obtain ⟨moved, returned, named, listed⟩ :=
      ih fun other member => known other (List.mem_cons_of_mem item member)
    obtain ⟨r, member, same⟩ := known item List.mem_cons_self
    cases found : rows.find? fun r => r.item = item with
    | none => simpa [same] using List.find?_eq_none.mp found r member
    | some first =>
      have here : first.item = item := by simpa using List.find?_some found
      refine ⟨first :: moved, ?_, ?_, ?_⟩
      · rw [List.mapM_cons, found, returned]
        rfl
      · rw [List.map_cons, here, named]
      · intro r member
        rcases List.mem_cons.mp member with rfl | later
        · exact List.mem_of_find?_eq_some found
        · exact listed r later

private theorem moved_perm (distinct : (rows.map OrderRow.item).Nodup) {moved : List OrderRow}
    (once : items.Nodup) (named : moved.map OrderRow.item = items)
    (listed : ∀ r ∈ moved, r ∈ rows) : moved.Perm (rows.filter fun r => r.item ∈ items) := by
  have rowsNodup : rows.Nodup := List.Nodup.of_map _ distinct
  have movedNodup : moved.Nodup := List.Nodup.of_map OrderRow.item (named ▸ once)
  rw [List.perm_ext_iff_of_nodup movedNodup (rowsNodup.filter _)]
  intro r
  rw [List.mem_filter, decide_eq_true_eq]
  constructor
  · intro member
    exact ⟨listed r member, named ▸ List.mem_map_of_mem member⟩
  · rintro ⟨member, asked⟩
    rw [← named] at asked
    obtain ⟨r', member', same⟩ := List.mem_map.mp asked
    exact row_of_item distinct (listed r' member') member same ▸ member'

private theorem flatMap_behind {kept : List OrderRow} {anchor : Item} (moved : List OrderRow)
    (distinct : (kept.map OrderRow.item).Nodup) (found : ∃ r ∈ kept, r.item = anchor) :
    ∃ before r after, kept = before ++ r :: after ∧ r.item = anchor ∧
      (kept.flatMap fun r => if r.item = anchor then r :: moved else [r]) =
        before ++ r :: (moved ++ after) := by
  obtain ⟨r, member, rfl⟩ := found
  obtain ⟨before, after, rfl⟩ := List.append_of_mem member
  rw [List.map_append, List.map_cons, List.nodup_append] at distinct
  obtain ⟨-, tail, apart⟩ := distinct
  rw [List.nodup_cons] at tail
  have others : ∀ l : List OrderRow, (∀ b ∈ l, b.item ≠ r.item) →
      (l.flatMap fun b => if b.item = r.item then b :: moved else [b]) = l := by
    intro l other
    induction l with
    | nil => rfl
    | cons b l ih =>
      rw [List.flatMap_cons, if_neg (other b List.mem_cons_self),
        ih fun c member => other c (List.mem_cons_of_mem b member)]
      rfl
  refine ⟨before, r, after, rfl, rfl, ?_⟩
  rw [List.flatMap_append, List.flatMap_cons, if_pos rfl, others before, others after]
  · rfl
  · intro b member same
    exact tail.1 (same ▸ List.mem_map_of_mem member)
  · intro b member same
    exact apart b.item (List.mem_map_of_mem member) r.item List.mem_cons_self same

private theorem eq_of_items_eq (distinct : (rows.map OrderRow.item).Nodup) {out : List OrderRow}
    (listed : ∀ r ∈ out, r ∈ rows) (same : rows.map OrderRow.item = out.map OrderRow.item) :
    out = rows := by
  have length : rows.length = out.length := by simpa using congrArg List.length same
  apply List.ext_getElem length.symm
  intro n inOut inRows
  apply row_of_item distinct (listed _ (List.getElem_mem inOut)) (List.getElem_mem inRows)
  have pair := congrArg (fun l => l[n]?) same
  simpa [inOut, inRows] using pair.symm

structure MovedAsAsked (rows : List OrderRow) (req : OrderMoveRequest) (out : List OrderRow)
    (changed : Bool) : Prop where
  permuted : out.Perm rows
  contiguous : ∃ before anchor moved after, out = before ++ anchor :: (moved ++ after) ∧
    anchor.item = req.after ∧ moved.map OrderRow.item = req.items
  others : (out.filter fun r => r.item ∉ req.items) = rows.filter fun r => r.item ∉ req.items
  told : changed = true ↔ out ≠ rows

private theorem validate_spec (valid : validateClientEntryOrderMove req = true) :
    req.items.Nodup ∧ req.after ∉ req.items := by
  simp only [validateClientEntryOrderMove, validateClientEntryOrderItems, Bool.and_eq_true,
    decide_eq_true_eq] at valid
  exact ⟨valid.1.1.1.1.2.2, valid.2⟩

/-- A request is known when the revision is current and its items and its anchor are there. -/
def Known (digest : List OrderRow → String) (rows : List OrderRow) (req : OrderMoveRequest) :
    Prop :=
  digest rows = req.expectedRevision ∧ (∃ r ∈ rows, r.item = req.after) ∧
    ∀ item ∈ req.items, ∃ r ∈ rows, r.item = item

theorem planClientEntryOrderMove_moves (distinct : (rows.map OrderRow.item).Nodup)
    (valid : validateClientEntryOrderMove req = true) (known : Known digest rows req) :
    ∃ out changed, planClientEntryOrderMove digest rows req = .ok (out, changed) ∧
      MovedAsAsked rows req out changed := by
  obtain ⟨once, apart⟩ := validate_spec valid
  obtain ⟨current, anchored, asked⟩ := known
  obtain ⟨moved, returned, named, listed⟩ := mapM_find asked clientEntryOrderConflict
  have keptDistinct : ((rows.filter fun r => r.item ∉ req.items).map OrderRow.item).Nodup :=
    distinct.sublist (List.Sublist.map _ List.filter_sublist)
  have keptAnchor : ∃ r ∈ rows.filter fun r => r.item ∉ req.items, r.item = req.after := by
    obtain ⟨r, member, same⟩ := anchored
    exact ⟨r, List.mem_filter.mpr ⟨member, decide_eq_true (same ▸ apart)⟩, same⟩
  obtain ⟨before, anchor, after, kept, here, out⟩ :=
    flatMap_behind moved keptDistinct keptAnchor
  have perm : (before ++ anchor :: (moved ++ after)).Perm rows := by
    have split : (rows.filter (fun r => r.item ∈ req.items) ++
        rows.filter fun r => r.item ∉ req.items).Perm rows := by
      simpa using List.filter_append_perm (fun r : OrderRow => decide (r.item ∈ req.items)) rows
    refine List.Perm.trans ?_ (((moved_perm distinct once named listed).append_right _).trans split)
    rw [kept]
    calc (before ++ anchor :: (moved ++ after)).Perm (anchor :: (before ++ (moved ++ after))) :=
          List.perm_middle
      _ = (anchor :: before) ++ moved ++ after := by simp
      _ |>.Perm (moved ++ (anchor :: before) ++ after) :=
          List.perm_append_comm.append_right after
      _ |>.Perm (moved ++ (before ++ anchor :: after)) := by
          rw [List.append_assoc]
          exact List.perm_middle.symm.append_left moved
  refine ⟨before ++ anchor :: (moved ++ after),
    decide (rows.map OrderRow.item ≠ (before ++ anchor :: (moved ++ after)).map OrderRow.item),
    ?_, ?_⟩
  · unfold planClientEntryOrderMove
    rw [ensure_of _ valid, ensure_of _ current, ensure_of _ anchored, returned]
    simp only [bind_ok, out]
    rfl
  · constructor
    case permuted => exact perm
    case contiguous => exact ⟨before, anchor, moved, after, rfl, here, named⟩
    case others =>
      have chosen : ∀ r ∈ moved, r.item ∈ req.items := fun r member =>
        named ▸ List.mem_map_of_mem member
      have spared : ∀ r ∈ before ++ anchor :: after, r.item ∉ req.items := by
        intro r member
        rw [← kept] at member
        exact of_decide_eq_true (List.mem_filter.mp member).2
      have movedGone : (moved.filter fun r => r.item ∉ req.items) = [] := by
        rw [List.filter_eq_nil_iff]
        intro r member
        simp [chosen r member]
      rw [kept, List.filter_append, List.filter_cons_of_pos, List.filter_append, movedGone,
        List.nil_append, List.filter_eq_self.mpr, List.filter_eq_self.mpr]
      · exact fun r member => decide_eq_true (spared r (by simp [member]))
      · exact fun r member => decide_eq_true (spared r (by simp [member]))
      · exact decide_eq_true (spared anchor (by simp))
    case told =>
      rw [decide_eq_true_eq]
      apply not_congr
      constructor
      · exact eq_of_items_eq distinct fun r member => perm.mem_iff.mp member
      · intro same
        rw [same]

theorem planClientEntryOrderMove_refused (unknown : ¬Known digest rows req) :
    ∃ e, planClientEntryOrderMove digest rows req = .error e := by
  cases returned : planClientEntryOrderMove digest rows req with
  | error e => exact ⟨e, rfl⟩
  | ok result =>
    simp only [planClientEntryOrderMove, bind_eq_ok, ensure_eq_ok, exists_const] at returned
    obtain ⟨-, current, anchored, moved, found, -⟩ := returned
    refine absurd ⟨current, anchored, ?_⟩ unknown
    intro item member
    cases row : rows.find? fun r => r.item = item with
    | some r => exact ⟨r, List.mem_of_find?_eq_some row, by simpa using List.find?_some row⟩
    | none =>
      have fails : ∀ items : List Item, item ∈ items → ∀ moved, items.mapM (fun item =>
          require (rows.find? fun r => r.item = item) clientEntryOrderConflict) ≠ .ok moved := by
        intro items
        induction items with
        | nil => exact fun member => (List.not_mem_nil member).elim
        | cons first items ih =>
          intro member moved found
          rw [List.mapM_cons, bind_eq_ok] at found
          obtain ⟨r, head, rest⟩ := found
          rw [bind_eq_ok] at rest
          obtain ⟨others, tail, -⟩ := rest
          rcases List.mem_cons.mp member with rfl | later
          · rw [row] at head
            cases head
          · exact ih later others tail
      exact absurd found (fails req.items member moved)

end

/-! ## Numbering -/

section

variable {db db' : RuleBase}

def RuleBase.number (db : RuleBase) : Item → Option Int
  | .policy id => (db.policies.find? id).map PolicyRow.sort
  | .splitGroup id => (db.groups.find? id).bind GroupRow.globalSort

/-- Which rows are visible does not depend on their numbers. -/
structure Renumbered (db db' : RuleBase) : Prop where
  policies : db'.policies.rows.map (fun p => (p.id, p.mode)) =
    db.policies.rows.map fun p => (p.id, p.mode)
  groups : db'.groups.rows.map (fun g => (g.id, g.policyId, g.parentId)) =
    db.groups.rows.map fun g => (g.id, g.policyId, g.parentId)

theorem Renumbered.refl (db : RuleBase) : Renumbered db db := ⟨rfl, rfl⟩

theorem Renumbered.trans {db'' : RuleBase} (first : Renumbered db db')
    (second : Renumbered db' db'') : Renumbered db db'' :=
  ⟨second.policies.trans first.policies, second.groups.trans first.groups⟩

private theorem Renumbered.isLeaf (renumbered : Renumbered db db') (id : Int) :
    isLeaf db'.groups id = isLeaf db.groups id := by
  have parents : db'.groups.rows.map GroupRow.parentId = db.groups.rows.map GroupRow.parentId := by
    have columns := congrArg (List.map fun c : Int × Int × Option Int => c.2.2) renumbered.groups
    simpa [List.map_map, Function.comp_def] using columns
  have child : ∀ t : GroupTable,
      (∃ g ∈ t, g.parentId = some id) ↔ some id ∈ t.rows.map GroupRow.parentId := by
    intro t
    rw [List.mem_map]
    rfl
  unfold ClientEntry.isLeaf
  rw [decide_eq_decide, child, child, parents]

private theorem mode_isSplit (db : RuleBase) (id : Int) :
    db.isSplit id = true ↔ (id, Mode.split) ∈ db.policies.rows.map fun p => (p.id, p.mode) := by
  simp only [RuleBase.isSplit, decide_eq_true_eq, List.mem_map, Prod.mk.injEq]
  rfl

private theorem Renumbered.isSplit (renumbered : Renumbered db db') (id : Int) :
    db'.isSplit id = db.isSplit id := by
  rw [Bool.eq_iff_iff, mode_isSplit, mode_isSplit, renumbered.policies]

private theorem filterMap_if {α β : Type} (p : α → Bool) (f : α → β) (l : List α) :
    (l.filterMap fun a => if p a = true then some (f a) else none) = (l.filter p).map f := by
  induction l with
  | nil => rfl
  | cons a l ih =>
    by_cases chosen : p a = true
    · simp [chosen, ih]
    · simp [chosen, ih]

private theorem leafRow?_item (db : RuleBase) (g : GroupRow) :
    (db.leafRow? g).map OrderRow.item =
      if (db.isSplit g.policyId && isLeaf db.groups g.id) = true then some (.splitGroup g.id)
      else none := by
  have split : db.isSplit g.policyId = true ↔
      ∃ p, db.policies.find? g.policyId = some p ∧ p.mode = .split := by
    simp only [RuleBase.isSplit, decide_eq_true_eq, Table.find?_eq_some]
    constructor
    · rintro ⟨p, member, same, mode⟩
      exact ⟨p, ⟨member, same⟩, mode⟩
    · rintro ⟨p, ⟨member, same⟩, mode⟩
      exact ⟨p, member, same, mode⟩
  cases found : db.policies.find? g.policyId with
  | none =>
    have other : ¬db.isSplit g.policyId = true := by simp [split, found]
    simp [RuleBase.leafRow?, found, other]
  | some p =>
    by_cases mode : p.mode = .split
    · have here : db.isSplit g.policyId = true := by simp [split, found, mode]
      by_cases leaf : isLeaf db.groups g.id = true
      · simp [RuleBase.leafRow?, found, mode, here, leaf, leafRow, Option.filter]
      · simp [RuleBase.leafRow?, found, here, leaf, Option.filter]
    · have other : ¬db.isSplit g.policyId = true := by simp [split, found, mode]
      simp [RuleBase.leafRow?, found, mode, other, Option.filter]

private theorem visibleItems_eq (db : RuleBase) :
    visibleItems db =
      (db.policies.rows.filter fun p => p.mode ≠ .split).map (fun p => .policy p.id) ++
      (db.groups.rows.filter fun g => db.isSplit g.policyId && isLeaf db.groups g.id).map
        fun g => .splitGroup g.id := by
  have leaves : (db.groups.rows.filterMap db.leafRow?).map OrderRow.item =
      (db.groups.rows.filter fun g => db.isSplit g.policyId && isLeaf db.groups g.id).map
        fun g => .splitGroup g.id := by
    rw [← filterMap_if, List.map_filterMap]
    simp only [leafRow?_item]
  rw [visibleItems, visibleRows, List.map_append, List.map_map, leaves]
  rfl

theorem Renumbered.visibleItems (renumbered : Renumbered db db') :
    visibleItems db' = visibleItems db := by
  have standard : ∀ t : PolicyTable,
      (t.rows.filter fun p => p.mode ≠ .split).map (fun p => Item.policy p.id) =
        ((t.rows.map fun p => (p.id, p.mode)).filter fun c => c.2 ≠ .split).map
          fun c => Item.policy c.1 := by
    intro t
    rw [List.filter_map, List.map_map]
    rfl
  have leaves : (db'.groups.rows.filter fun g =>
        db'.isSplit g.policyId && ClientEntry.isLeaf db'.groups g.id).map
          (fun g => Item.splitGroup g.id) =
      ((db'.groups.rows.map fun g => (g.id, g.policyId, g.parentId)).filter fun c =>
        db.isSplit c.2.1 && ClientEntry.isLeaf db.groups c.1).map fun c => Item.splitGroup c.1 := by
    rw [List.filter_map, List.map_map]
    simp only [renumbered.isSplit, renumbered.isLeaf]
    rfl
  have old : (db.groups.rows.filter fun g =>
        db.isSplit g.policyId && ClientEntry.isLeaf db.groups g.id).map
          (fun g => Item.splitGroup g.id) =
      ((db.groups.rows.map fun g => (g.id, g.policyId, g.parentId)).filter fun c =>
        db.isSplit c.2.1 && ClientEntry.isLeaf db.groups c.1).map fun c => Item.splitGroup c.1 := by
    rw [List.filter_map, List.map_map]
    rfl
  rw [visibleItems_eq, visibleItems_eq, standard, standard, renumbered.policies, leaves, old,
    renumbered.groups]

private theorem numbered_policy {id : Int} {f : PolicyRow → PolicyRow}
    (hf : Preserves PolicyRow.id PolicyRow.id f) (written : ∀ p, (f p).sort = n)
    (mode : ∀ p, (f p).mode = p.mode) (known : ∃ p ∈ db.policies, p.id = id) :
    Renumbered db { db with policies := db.policies.updateWhere (fun p => p.id = id) f hf } ∧
      ∀ item, RuleBase.number
        { db with policies := db.policies.updateWhere (fun p => p.id = id) f hf } item =
          if item = .policy id then some n else db.number item := by
  constructor
  · refine ⟨?_, rfl⟩
    rw [Table.rows_updateWhere, List.map_map]
    apply List.map_congr_left
    intro p _
    rw [Function.comp_apply]
    split
    · rw [(hf p).1, mode]
    · rfl
  · intro item
    cases item with
    | splitGroup other => rfl
    | policy other =>
      change ((db.policies.updateWhere _ f hf).find? other).map PolicyRow.sort = _
      rw [Table.find?_updateWhere, Option.map_map]
      split
      next same =>
        obtain rfl : other = id := Item.policy.inj same
        obtain ⟨p, member, rfl⟩ := known
        rw [db.policies.find?_key member]
        simp [written]
      next differs =>
        change _ = (db.policies.find? other).map PolicyRow.sort
        cases found : db.policies.find? other with
        | none => rfl
        | some p =>
          have apart : p.id ≠ id := fun same =>
            differs (congrArg Item.policy ((Table.key_of_find? found).symm.trans same))
          simp [apart]

private theorem numbered_group {id : Int} {f : GroupRow → GroupRow}
    (hf : Preserves GroupRow.id (fun g => (g.policyId, g.path)) f)
    (written : ∀ g, (f g).globalSort = some n) (parent : ∀ g, (f g).parentId = g.parentId)
    (known : ∃ g ∈ db.groups, g.id = id) :
    Renumbered db { db with groups := db.groups.updateWhere (fun g => g.id = id) f hf } ∧
      ∀ item, RuleBase.number
        { db with groups := db.groups.updateWhere (fun g => g.id = id) f hf } item =
          if item = .splitGroup id then some n else db.number item := by
  constructor
  · refine ⟨rfl, ?_⟩
    rw [Table.rows_updateWhere, List.map_map]
    apply List.map_congr_left
    intro g _
    rw [Function.comp_apply]
    split
    · rw [(hf g).1, parent, (Prod.mk.inj (hf g).2).1]
    · rfl
  · intro item
    cases item with
    | policy other => rfl
    | splitGroup other =>
      change ((db.groups.updateWhere _ f hf).find? other).bind GroupRow.globalSort = _
      rw [Table.find?_updateWhere]
      split
      next same =>
        obtain rfl : other = id := Item.splitGroup.inj same
        obtain ⟨g, member, rfl⟩ := known
        rw [db.groups.find?_key member]
        simp [written]
      next differs =>
        change _ = (db.groups.find? other).bind GroupRow.globalSort
        cases found : db.groups.find? other with
        | none => rfl
        | some g =>
          have apart : g.id ≠ id := fun same =>
            differs (congrArg Item.splitGroup ((Table.key_of_find? found).symm.trans same))
          simp [apart]

private theorem persistFrom_numbers {items : List Item} {index : Nat} (once : items.Nodup)
    (persisted : persistFrom now db index items = some db') :
    Renumbered db db' ∧ (∀ item ∉ items, db'.number item = db.number item) ∧
      ∀ k item, items[k]? = some item →
        db'.number item = some ((index + k + 1 : Nat) * clientEntryRuleSortStep) := by
  induction items generalizing db index with
  | nil =>
    obtain rfl := Option.some.inj persisted
    exact ⟨.refl db, fun _ _ => rfl, fun _ _ found => by cases found⟩
  | cons first items ih =>
    obtain ⟨fresh, once⟩ := List.nodup_cons.mp once
    have step : ∃ written, persistFrom now written (index + 1) items = some db' ∧
        Renumbered db written ∧ ∀ item, written.number item =
          if item = first then some ((index + 1) * clientEntryRuleSortStep)
          else db.number item := by
      cases first with
      | policy id =>
        simp only [persistFrom, Option.ite_none_right_eq_some] at persisted
        obtain ⟨⟨p, member, same, -⟩, persisted⟩ := persisted
        obtain ⟨written, statement, rest⟩ := Option.bind_eq_some_iff.mp persisted
        obtain ⟨-, rfl⟩ := checked_eq_some.mp statement
        have here := @numbered_policy ((index + 1) * clientEntryRuleSortStep) db id
          (fun p => { p with sort := (index + 1) * clientEntryRuleSortStep, updatedAt := now })
          (fun _ => ⟨rfl, rfl⟩) (fun _ => rfl) (fun _ => rfl) ⟨p, member, same⟩
        exact ⟨_, rest, here⟩
      | splitGroup id =>
        simp only [persistFrom, Option.ite_none_right_eq_some] at persisted
        obtain ⟨⟨g, member, same, -, -⟩, persisted⟩ := persisted
        obtain ⟨written, statement, rest⟩ := Option.bind_eq_some_iff.mp persisted
        obtain ⟨-, rfl⟩ := checked_eq_some.mp statement
        have here := @numbered_group ((index + 1) * clientEntryRuleSortStep) db id
          (fun g => { g with
            globalSort := some ((index + 1) * clientEntryRuleSortStep)
            updatedAt := now })
          (fun _ => ⟨rfl, rfl⟩) (fun _ => rfl) (fun _ => rfl) ⟨g, member, same⟩
        exact ⟨_, rest, here⟩
    obtain ⟨written, rest, renumbered, numbers⟩ := step
    obtain ⟨later, others, numbered⟩ := ih once rest
    refine ⟨renumbered.trans later, ?_, ?_⟩
    · intro item absent
      rw [List.mem_cons, not_or] at absent
      rw [others item absent.2, numbers, if_neg absent.1]
    · intro k item found
      cases k with
      | zero =>
        obtain rfl : first = item := by simpa using found
        rw [others first fresh, numbers, if_pos rfl]
        push_cast
        rfl
      | succ k =>
        rw [numbered k item (by simpa using found)]
        congr 2
        omega

private theorem syncSplitPolicySorts_numbers (synced : syncSplitPolicySorts db = some db') :
    Renumbered db db' ∧ ∀ item ∈ visibleItems db, db'.number item = db.number item := by
  obtain ⟨-, rfl⟩ := checked_eq_some.mp synced
  constructor
  · refine ⟨?_, rfl⟩
    rw [Table.rows_updateWhere, List.map_map]
    apply List.map_congr_left
    intro p _
    rw [Function.comp_apply]
    split
    · rfl
    · rfl
  · intro item visible
    cases item with
    | splitGroup id => rfl
    | policy id =>
      rw [visibleItems_eq, List.mem_append] at visible
      rcases visible with standard | leaf
      · obtain ⟨p, chosen, same⟩ := List.mem_map.mp standard
        obtain ⟨member, mode⟩ := List.mem_filter.mp chosen
        obtain rfl : p.id = id := Item.policy.inj same
        simp only [RuleBase.number, Table.find?_updateWhere, db.policies.find?_key member]
        simp [of_decide_eq_true mode]
      · obtain ⟨g, -, same⟩ := List.mem_map.mp leaf
        cases same

private theorem sort_of_number {r : OrderRow} (member : r ∈ visibleRows db)
    (numbered : db.number r.item = some n) : r.sort = n := by
  rw [visibleRows, List.mem_append] at member
  rcases member with standard | leaf
  · obtain ⟨p, chosen, rfl⟩ := List.mem_map.mp standard
    have found : db.policies.find? p.id = some p :=
      db.policies.find?_key (List.mem_filter.mp chosen).1
    simpa [RuleBase.number, standardRow, found] using numbered
  · obtain ⟨g, listed, row⟩ := List.mem_filterMap.mp leaf
    obtain ⟨p, -, rfl⟩ := Option.map_eq_some_iff.mp row
    have found : db.groups.find? g.id = some g := db.groups.find?_key listed
    have placed : g.globalSort = some n := by
      simpa [RuleBase.number, leafRow, found] using numbered
    simp [leafRow, placed]

theorem persistClientEntryVisibleOrder_numbers {items : List Item} (once : items.Nodup)
    (visible : ∀ item ∈ items, item ∈ visibleItems db)
    (persisted : persistClientEntryVisibleOrder db items now = some db') :
    visibleItems db' = visibleItems db ∧ ∀ k item, items[k]? = some item →
      db'.number item = some ((k + 1 : Nat) * clientEntryRuleSortStep) := by
  obtain ⟨numbered, first, synced⟩ := Option.bind_eq_some_iff.mp persisted
  obtain ⟨same, -, numbers⟩ := persistFrom_numbers once first
  obtain ⟨same', kept⟩ := syncSplitPolicySorts_numbers synced
  refine ⟨(same.trans same').visibleItems, ?_⟩
  intro k item found
  have here : item ∈ visibleItems numbered :=
    same.visibleItems ▸ visible item (List.mem_of_getElem? found)
  rw [kept item here, numbers k item found, Nat.zero_add]

/-! ## Reading the order back -/

private def kindRank : Item → Nat
  | .policy _ => 0
  | .splitGroup _ => 1

private theorem kindName_lt (a b : Item) :
    (kindName a ≠ kindName b ↔ kindRank a ≠ kindRank b) ∧
      (kindName a < kindName b ↔ kindRank a < kindRank b) := by
  have before : kindName (.policy 0) < kindName (.splitGroup 0) := by decide
  have after : ¬kindName (.splitGroup 0) < kindName (.policy 0) := by decide
  have irreflexive : ∀ text : String, ¬text < text := fun _ => String.lt_irrefl _
  cases a with
  | policy i =>
    cases b with
    | policy j => exact ⟨by simp [kindName, kindRank], iff_of_false (irreflexive _) (Nat.lt_irrefl _)⟩
    | splitGroup j => exact ⟨by simp [kindName, kindRank], iff_of_true before Nat.zero_lt_one⟩
  | splitGroup i =>
    cases b with
    | policy j => exact ⟨by simp [kindName, kindRank], iff_of_false after (Nat.not_lt_zero _)⟩
    | splitGroup j => exact ⟨by simp [kindName, kindRank], iff_of_false (irreflexive _) (Nat.lt_irrefl _)⟩

private theorem rowBefore_iff (a b : OrderRow) :
    rowBefore a b = true ↔ a.sort < b.sort ∨ a.sort = b.sort ∧ (a.policyId < b.policyId ∨
      a.policyId = b.policyId ∧ (kindRank a.item < kindRank b.item ∨
        kindRank a.item = kindRank b.item ∧ a.item.id ≤ b.item.id)) := by
  unfold rowBefore
  simp only [(kindName_lt a.item b.item).1, (kindName_lt a.item b.item).2]
  split
  next sorts => simp only [decide_eq_true_eq]; omega
  next sorts =>
    split
    next policies => simp only [decide_eq_true_eq]; omega
    next policies =>
      split
      next kinds => simp only [decide_eq_true_eq]; omega
      next kinds => simp only [decide_eq_true_eq]; omega

private theorem rowBefore_total (a b : OrderRow) :
    rowBefore a b = true ∨ rowBefore b a = true := by
  rw [rowBefore_iff, rowBefore_iff]
  omega

private theorem rowBefore_trans (a b c : OrderRow) (first : rowBefore a b = true)
    (second : rowBefore b c = true) : rowBefore a c = true := by
  rw [rowBefore_iff] at first second ⊢
  omega

theorem loadVisibleOrder_perm (db : RuleBase) :
    ((loadVisibleOrder db).map OrderRow.item).Perm (visibleItems db) :=
  (List.perm_insertionSort _ _).map OrderRow.item

private theorem loadVisibleOrder_sorted (db : RuleBase) :
    (loadVisibleOrder db).Pairwise fun a b => a.sort ≤ b.sort := by
  have total : Std.Total fun a b : OrderRow => rowBefore a b = true := ⟨rowBefore_total⟩
  have trans : IsTrans OrderRow fun a b => rowBefore a b = true := ⟨rowBefore_trans⟩
  refine (List.pairwise_insertionSort (fun a b => rowBefore a b = true) _).imp ?_
  intro a b before
  rw [rowBefore_iff] at before
  omega

theorem loadVisibleOrder_persisted {items : List Item} (once : items.Nodup)
    (all : items.Perm (visibleItems db))
    (persisted : persistClientEntryVisibleOrder db items now = some db') :
    (loadVisibleOrder db').map OrderRow.item = items := by
  obtain ⟨same, numbers⟩ := persistClientEntryVisibleOrder_numbers once
    (fun item => all.mem_iff.mp) persisted
  have perm : ((loadVisibleOrder db').map OrderRow.item).Perm items :=
    (loadVisibleOrder_perm db').trans (same ▸ all.symm)
  have sort : ∀ r ∈ loadVisibleOrder db',
      r.sort = (items.idxOf r.item + 1 : Nat) * clientEntryRuleSortStep := by
    intro r member
    have listed : r.item ∈ items := perm.mem_iff.mp (List.mem_map_of_mem member)
    have row : r ∈ visibleRows db' := (List.perm_insertionSort _ _).mem_iff.mp member
    exact sort_of_number row (numbers _ r.item (List.getElem?_idxOf listed))
  -- both lists are sorted by the place of their items in the saved order
  have loaded : ((loadVisibleOrder db').map OrderRow.item).Pairwise fun a b =>
      items.idxOf a ≤ items.idxOf b := by
    rw [List.pairwise_map]
    refine (loadVisibleOrder_sorted db').imp_of_mem ?_
    intro a b ha hb before
    rw [sort a ha, sort b hb, clientEntryRuleSortStep] at before
    omega
  have saved : items.Pairwise fun a b => items.idxOf a ≤ items.idxOf b := by
    rw [List.pairwise_iff_getElem]
    intro i j hi hj before
    rw [once.idxOf_getElem, once.idxOf_getElem]
    exact before.le
  refine perm.eq_of_pairwise ?_ loaded saved
  intro a b _ member le ge
  exact ((List.idxOf_inj member).mp (Nat.le_antisymm ge le)).symm

theorem visibleItems_nodup (db : RuleBase) : (visibleItems db).Nodup := by
  rw [visibleItems_eq, List.nodup_append]
  refine ⟨?_, ?_, ?_⟩
  · have ids := db.policies.keyed.sublist
      (List.Sublist.map PolicyRow.id (List.filter_sublist (p := fun p => p.mode ≠ .split)))
    have items := ids.map (f := Item.policy) fun _ _ same => Item.policy.inj same
    rwa [List.map_map] at items
  · have ids := db.groups.keyed.sublist (List.Sublist.map GroupRow.id
      (List.filter_sublist (p := fun g => db.isSplit g.policyId && isLeaf db.groups g.id)))
    have items := ids.map (f := Item.splitGroup) fun _ _ same => Item.splitGroup.inj same
    rwa [List.map_map] at items
  · intro a standard b leaf same
    obtain ⟨p, -, rfl⟩ := List.mem_map.mp standard
    obtain ⟨g, -, rfl⟩ := List.mem_map.mp leaf
    cases same

theorem loadVisibleOrder_distinct (db : RuleBase) :
    ((loadVisibleOrder db).map OrderRow.item).Nodup :=
  (loadVisibleOrder_perm db).nodup_iff.mpr (visibleItems_nodup db)

theorem moveClientEntryVisibleRows_moves
    (moved : moveClientEntryVisibleRows digest db req now = .ok db') :
    ∃ out changed, planClientEntryOrderMove digest (loadVisibleOrder db) req = .ok (out, changed) ∧
      MovedAsAsked (loadVisibleOrder db) req out changed ∧
      (loadVisibleOrder db').map OrderRow.item = out.map OrderRow.item := by
  simp only [moveClientEntryVisibleRows, bind_eq_ok] at moved
  obtain ⟨⟨ordered, told⟩, plan, written⟩ := moved
  have known : Known digest (loadVisibleOrder db) req := by
    by_contra unknown
    obtain ⟨e, refused⟩ := planClientEntryOrderMove_refused unknown
    rw [refused] at plan
    cases plan
  have valid : validateClientEntryOrderMove req = true := by
    simp only [planClientEntryOrderMove, bind_eq_ok, ensure_eq_ok, exists_const] at plan
    exact plan.1
  obtain ⟨out, changed, returned, asked⟩ :=
    planClientEntryOrderMove_moves (loadVisibleOrder_distinct db) valid known
  obtain ⟨rfl, rfl⟩ : ordered = out ∧ told = changed := by
    rw [returned] at plan
    simpa using plan.symm
  refine ⟨ordered, told, plan, asked, ?_⟩
  dsimp only at written
  split at written
  next changed =>
    rw [require_eq_ok] at written
    apply loadVisibleOrder_persisted _ _ written
    · exact (asked.permuted.map OrderRow.item).nodup_iff.mpr (loadVisibleOrder_distinct db)
    · exact (asked.permuted.map OrderRow.item).trans (loadVisibleOrder_perm db)
  next unchanged =>
    rw [pure_eq_ok] at written
    rw [← written, of_not_not (mt asked.told.mpr unchanged)]

end

end ForestPanel.ClientEntry
