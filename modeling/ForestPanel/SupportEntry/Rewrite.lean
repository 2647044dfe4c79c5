import ForestPanel.Lib.Related
import ForestPanel.SupportEntry.Asked
import Mathlib.Data.List.ReduceOption

/-!
# The lists of all rules

The loop over the rules writes the list that is asked for into every rule with a list of its own.
Other rows, and the other columns of these, stay as they are.
-/
namespace ForestPanel.SupportEntry

open ClientEntry Outcome Relational

/-- A rule whose list support staff may change: what its conditions are, where the list is, and
whom it holds. -/
structure Editable (lib : FoldLibrary) (row : PolicyRow) (conditions : List Condition)
    (index : Nat) (emails : List String) : Prop where
  entry : PolicyRow.hasEntry row = true
  decoded : decodeConditions lib.toStandardLibrary row.conditions = .ok conditions
  list : HasList lib conditions index emails

structure RowChanged (lib : FoldLibrary) (email : String) (chosen : Option Int)
    (before after : PolicyRow) : Prop where
  frame : after = { before with conditions := after.conditions, updatedAt := after.updatedAt }
  others : (¬∃ conditions index emails, Editable lib before conditions index emails) →
    after = before
  list : ∀ conditions index emails, Editable lib before conditions index emails →
    Editable lib after
      (replaceValues conditions index ((askedList emails email (chosen = some before.id)).map rawQuoted))
      index (askedList emails email (chosen = some before.id))

section

variable {lib : FoldLibrary} {rules : RuleBase} {policies : List SupportEntryMembershipPolicy}

theorem membershipPolicy_some {row : PolicyRow} {p : SupportEntryMembershipPolicy}
    (loaded : membershipPolicy lib rules row = .ok (some p)) :
    p.policyID = row.id ∧ decodeConditions lib.toStandardLibrary row.conditions = .ok p.conditions ∧
      emailIndexOf p.conditions = some p.emailIndex := by
  simp only [membershipPolicy, bind_eq_ok, pure_eq_ok, Option.map_eq_some_iff] at loaded
  obtain ⟨conditions, decoded, index, only, rfl⟩ := loaded
  exact ⟨rfl, decoded, only⟩

theorem row_of_loaded (loaded : loadSupportEntryMembershipPolicies lib rules = .ok policies)
    {p : SupportEntryMembershipPolicy} (member : p ∈ policies) :
    ∃ row ∈ rules.policies, PolicyRow.hasEntry row = true ∧
      membershipPolicy lib rules row = .ok (some p) := by
  simp only [loadSupportEntryMembershipPolicies, bind_eq_ok, pure_eq_ok] at loaded
  obtain ⟨found, returned, rfl⟩ := loaded
  obtain ⟨row, listed, same⟩ :=
    related_of_mem (forall₂_of_mapM returned).flip (List.reduceOption_mem_iff.mp member)
  rw [(List.perm_insertionSort _ _).mem_iff, List.mem_filter] at listed
  exact ⟨row, listed.1, listed.2, same⟩

theorem loaded_of_row (loaded : loadSupportEntryMembershipPolicies lib rules = .ok policies)
    {row : PolicyRow} (listed : row ∈ rules.policies) (entry : PolicyRow.hasEntry row = true) :
    ∃ found, membershipPolicy lib rules row = .ok found ∧ ∀ p, found = some p → p ∈ policies := by
  simp only [loadSupportEntryMembershipPolicies, bind_eq_ok, pure_eq_ok] at loaded
  obtain ⟨found, returned, rfl⟩ := loaded
  have member : row ∈ (rules.policies.rows.filter PolicyRow.hasEntry).insertionSort
      fun a b => a.id ≤ b.id := by
    rw [(List.perm_insertionSort _ _).mem_iff, List.mem_filter]
    exact ⟨listed, entry⟩
  obtain ⟨some, member, same⟩ := related_of_mem (forall₂_of_mapM returned) member
  refine ⟨some, same, ?_⟩
  rintro p rfl
  exact List.reduceOption_mem_iff.mpr member

theorem loaded_of_editable (loaded : loadSupportEntryMembershipPolicies lib rules = .ok policies)
    {row : PolicyRow} (listed : row ∈ rules.policies) {conditions : List Condition} {index : Nat}
    {emails : List String} (editable : Editable lib row conditions index emails) :
    ∃ p ∈ policies, p.policyID = row.id ∧ p.conditions = conditions ∧ p.emailIndex = index := by
  obtain ⟨found, same, among⟩ := loaded_of_row loaded listed editable.entry
  simp only [membershipPolicy, editable.decoded, bind_ok, editable.list.only, Option.map_some]
    at same
  exact ⟨_, among _ (Except.ok.inj same).symm, rfl, rfl, rfl⟩

def Rewritten (lib : FoldLibrary) (email : String) (chosen : Option Int) (now : Int)
    (done : List SupportEntryMembershipPolicy) (before after : PolicyRow) : Prop :=
  (after = before ∧ ∀ p ∈ done, PolicyRow.hasEntry before = true → p.policyID = before.id →
    supportEntryPolicyEmailUpdate lib p email (chosen = some p.policyID) = .ok none) ∨
  (PolicyRow.hasEntry before = true ∧ ∃ p ∈ done, p.policyID = before.id ∧ ∃ text,
    supportEntryPolicyEmailUpdate lib p email (chosen = some p.policyID) = .ok (some text) ∧
    after = { before with conditions := text, updatedAt := now })

variable {email : String} {chosen : Option Int} {now : Int}
  {done : List SupportEntryMembershipPolicy} {p : SupportEntryMembershipPolicy}
  {before after : PolicyRow}

theorem Rewritten.skip (row : Rewritten lib email chosen now done before after)
    (same : supportEntryPolicyEmailUpdate lib p email (chosen = some p.policyID) = .ok none) :
    Rewritten lib email chosen now (done ++ [p]) before after := by
  rcases row with ⟨rfl, none⟩ | ⟨entry, q, member, id, text⟩
  · refine Or.inl ⟨rfl, fun q member entry id => ?_⟩
    rcases List.mem_append.mp member with old | last
    · exact none q old entry id
    · rw [List.mem_singleton.mp last]
      exact same
  · exact Or.inr ⟨entry, q, List.mem_append_left _ member, id, text⟩

theorem Rewritten.update (row : Rewritten lib email chosen now done before after) {text : String}
    (changed : supportEntryPolicyEmailUpdate lib p email (chosen = some p.policyID) =
      .ok (some text)) :
    Rewritten lib email chosen now (done ++ [p]) before
      (if (after.id = p.policyID && PolicyRow.hasEntry after) = true then
        { after with conditions := text, updatedAt := now } else after) := by
  have id : after.id = before.id := by
    rcases row with ⟨rfl, -⟩ | ⟨-, -, -, -, -, -, rfl⟩
    · rfl
    · rfl
  have entry : PolicyRow.hasEntry after = PolicyRow.hasEntry before := by
    rcases row with ⟨rfl, -⟩ | ⟨-, -, -, -, -, -, rfl⟩
    · rfl
    · rfl
  rw [id, entry]
  by_cases hit : (before.id = p.policyID && PolicyRow.hasEntry before) = true
  · rw [if_pos hit]
    rw [Bool.and_eq_true, decide_eq_true_eq] at hit
    refine Or.inr ⟨hit.2, p, List.mem_append_right _ (List.mem_singleton.mpr rfl), hit.1.symm, text,
      changed, ?_⟩
    rcases row with ⟨rfl, -⟩ | ⟨-, -, -, -, -, -, rfl⟩
    · rfl
    · rfl
  · rw [if_neg hit]
    rcases row with ⟨same, none⟩ | ⟨owned, q, member, sameId, written⟩
    · refine Or.inl ⟨same, fun q member owned sameId => ?_⟩
      rcases List.mem_append.mp member with old | last
      · exact none q old owned sameId
      · rw [List.mem_singleton.mp last] at sameId
        exact absurd (by simp [sameId, owned]) hit
    · exact Or.inr ⟨owned, q, List.mem_append_left _ member, sameId, written⟩

theorem Rewritten.changed (loaded : loadSupportEntryMembershipPolicies lib rules = .ok policies)
    (plain : ∀ row ∈ rules.policies, ∀ conditions index emails,
      Editable lib row conditions index emails → Plain lib emails (normalEmail lib email))
    (member : before ∈ rules.policies)
    (row : Rewritten lib email chosen now policies before after) :
    RowChanged lib (normalEmail lib email) chosen before after := by
  rcases row with ⟨rfl, none⟩ | ⟨entry, p, among, id, text, written, rfl⟩
  · refine ⟨rfl, fun _ => rfl, fun conditions index emails editable => ?_⟩
    obtain ⟨p, among, id, rfl, rfl⟩ := loaded_of_editable loaded member editable
    have same := none p among editable.entry id
    rw [id] at same
    rcases email_update editable.list (plain _ member _ _ _ editable) same with
      ⟨-, asked⟩ | ⟨text, updated, -⟩
    · obtain ⟨first, last, -, whole, replaced⟩ := editable.list.parts
      rw [asked, replaced, ← whole]
      exact editable
    · cases updated
  · -- the rule was loaded from this row
    obtain ⟨source, listed, -, loads⟩ := row_of_loaded loaded among
    obtain ⟨sourceId, decoded, only⟩ := membershipPolicy_some loads
    obtain rfl : source = before :=
      rules.policies.eq_of_key listed member (sourceId.symm.trans id)
    refine ⟨rfl, fun none => ?_, fun conditions index emails editable => ?_⟩
    · obtain ⟨emails, list⟩ := exists_list (stored_of_decode decoded) only
      exact absurd ⟨_, _, emails, entry, decoded, list⟩ none
    · have same := editable.decoded
      rw [decoded] at same
      obtain rfl := Except.ok.inj same
      have place := editable.list.only
      rw [only] at place
      obtain rfl := Option.some.inj place
      rw [id] at written
      rcases email_update editable.list (plain _ member _ _ _ editable) written with
        ⟨updated, -⟩ | ⟨other, updated, stored, valid⟩
      · cases updated
      · obtain rfl := Option.some.inj updated
        exact ⟨entry, stored,
          editable.list.replace valid (askedList_nodup editable.list.holds.distinct)⟩

end

section

variable {ρ ε : Type} {lib : SupportLibrary ρ ε} {rules : RuleBase}
  {policies : List SupportEntryMembershipPolicy} {email : String} {chosen : Option Int} {now : Int}

/-- The other tables, and the rows, while the loop goes over the rules. -/
structure Underway (lib : SupportLibrary ρ ε) (email : String) (chosen : Option Int) (now : Int)
    (rules : RuleBase) (done : List SupportEntryMembershipPolicy)
    (progress : RuleBase × Bool) : Prop where
  tables : progress.1 = { rules with policies := progress.1.policies }
  rows : List.Forall₂ (Rewritten lib.toFoldLibrary email chosen now done) rules.policies.rows
    progress.1.policies.rows

theorem Underway.round {done : List SupportEntryMembershipPolicy} {progress next : RuleBase × Bool}
    {p : SupportEntryMembershipPolicy} (before : Underway lib email chosen now rules done progress)
    (returned : updateList lib email chosen now progress p = .ok next) :
    Underway lib email chosen now rules (done ++ [p]) next := by
  simp only [updateList, bind_eq_ok, mapError_eq_ok] at returned
  obtain ⟨update, changed, rest⟩ := returned
  cases update with
  | none =>
    obtain rfl := Except.ok.inj rest
    exact ⟨before.tables, before.rows.imp fun _ _ row => row.skip changed⟩
  | some text =>
    obtain rfl := Except.ok.inj rest
    constructor
    case tables =>
      have tables := before.tables
      rw [updateConditions, tables]
    case rows =>
      rw [updateConditions, Table.rows_updateWhere, List.forall₂_map_right_iff]
      exact before.rows.imp fun _ _ row => row.update changed

theorem lists_updated {changed : RuleBase} {listed : Bool}
    (loaded : loadSupportEntryMembershipPolicies lib.toFoldLibrary rules = .ok policies)
    (plain : ∀ row ∈ rules.policies, ∀ conditions index emails,
      Editable lib.toFoldLibrary row conditions index emails →
      Plain lib.toFoldLibrary emails (normalEmail lib.toFoldLibrary email))
    (returned : policies.foldlM (updateList lib email chosen now) (rules, false) =
      .ok (changed, listed)) :
    changed = { rules with policies := changed.policies } ∧
      List.Forall₂ (RowChanged lib.toFoldLibrary (normalEmail lib.toFoldLibrary email) chosen)
        rules.policies.rows changed.policies.rows := by
  have initial : Underway lib email chosen now rules [] (rules, false) := by
    refine ⟨rfl, List.forall₂_same.mpr fun row _ => Or.inl ⟨rfl, ?_⟩⟩
    intro p member
    cases member
  have final := foldlM_invariant (I := Underway lib email chosen now rules)
    (fun _ _ _ _ before returned => before.round returned) initial returned
  refine ⟨final.tables, ?_⟩
  have rows := (List.forall₂_and_left _ _).mpr ⟨fun row member => member, final.rows⟩
  exact rows.imp fun _ _ row => row.2.changed loaded plain row.1

end

end ForestPanel.SupportEntry
