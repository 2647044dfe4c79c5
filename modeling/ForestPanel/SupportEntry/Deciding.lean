import ForestPanel.SupportEntry.Rewrite

/-!
# The deciding rule of other users

A change of the lists moves one address. Whoever has another address passes the same conditions
after it, so the walk over the rules stops for that user at the same rule.
-/
namespace ForestPanel.SupportEntry

open ClientEntry FirstMatch Outcome Relational

variable {subject : Subject} {a b : JoinedRow} {db : RuleBase} {policies : PolicyTable}

section

variable {lib : FoldLibrary} {email : String} {chosen : Option Int}

def Apart (lib : FoldLibrary) (email : String) (subject : Subject) : Prop :=
  normalEmail lib subject.email ≠ email

/-- Conditions that no other subject tells apart. -/
def SameFor (lib : FoldLibrary) (email : String) (mode : Mode) (a b : List Condition) : Prop :=
  ∀ subject, Apart lib email subject →
    matchAll lib.toStandardLibrary (runtimeConditions mode a) subject =
      matchAll lib.toStandardLibrary (runtimeConditions mode b) subject

/-- Two rows of one rule that differ in the conditions for the user of the address alone. -/
structure RowAlike (lib : FoldLibrary) (email : String) (a b : PolicyRow) : Prop where
  frame : b = { a with conditions := b.conditions, updatedAt := b.updatedAt }
  conditions : Alike (SameFor lib email a.mode)
    (decodeConditions lib.toStandardLibrary a.conditions)
    (decodeConditions lib.toStandardLibrary b.conditions)

theorem matchAll_replace {conditions : List Condition} {index : Nat} {emails others : List String}
    (has : HasList lib conditions index emails)
    (changed : HasList lib (replaceValues conditions index (others.map rawQuoted)) index others)
    (same : normalEmail lib subject.email ∈ emails ↔ normalEmail lib subject.email ∈ others) :
    matchAll lib.toStandardLibrary conditions subject =
      matchAll lib.toStandardLibrary (replaceValues conditions index (others.map rawQuoted))
        subject := by
  obtain ⟨before, after, -, whole, replaced⟩ := has.parts
  have list : matchCondition lib.toStandardLibrary (emailList (emails.map rawQuoted)) subject =
      matchCondition lib.toStandardLibrary (emailList (others.map rawQuoted)) subject := by
    rw [Bool.eq_iff_iff, matchCondition_emailList has.holds, matchCondition_emailList changed.holds]
    exact same
  rw [replaced, whole, matchAll, matchAll, List.all_append, List.all_append, List.all_cons,
    List.all_cons, list]

theorem RowChanged.alike {a b : PolicyRow} (changed : RowChanged lib email chosen a b) :
    RowAlike lib email a b := by
  refine ⟨changed.frame, ?_⟩
  by_cases editable : ∃ conditions index emails, Editable lib a conditions index emails
  · obtain ⟨conditions, index, emails, editable⟩ := editable
    have after := changed.list conditions index emails editable
    rw [editable.decoded, after.decoded]
    refine .returned fun subject apart => ?_
    have standard : a.mode = .standard := by
      have entry := editable.entry
      simp only [PolicyRow.hasEntry, Bool.and_eq_true, decide_eq_true_eq] at entry
      exact entry.1
    have runs : ∀ cs, runtimeConditions a.mode cs = cs := by
      intro cs
      rw [standard]
      rfl
    rw [runs, runs]
    refine matchAll_replace editable.list after.list ?_
    rw [mem_askedList]
    constructor
    · exact fun member => Or.inl ⟨member, apart⟩
    · rintro (⟨member, -⟩ | ⟨same, -⟩)
      · exact member
      · exact absurd same apart
  · rw [changed.others editable]
    cases decodeConditions lib.toStandardLibrary a.conditions with
    | error e => exact .failed e
    | ok conditions => exact .returned fun _ _ => rfl

structure JoinedAlike (lib : FoldLibrary) (email : String) (a b : JoinedRow) : Prop where
  policy : RowAlike lib email a.policy b.policy
  group : b.group = a.group
  member : b.member = a.member

theorem JoinedAlike.id (alike : JoinedAlike lib email a b) : b.id = a.id := by
  rw [JoinedRow.id, JoinedRow.id, alike.policy.frame]

theorem JoinedAlike.visibleSort (alike : JoinedAlike lib email a b) :
    b.visibleSort = a.visibleSort := by
  rw [JoinedRow.visibleSort, JoinedRow.visibleSort, alike.group, alike.policy.frame]

theorem joinedRows_alike (rows : List.Forall₂ (RowAlike lib email) db.policies.rows policies.rows)
    (userId : Int) :
    List.Forall₂ (JoinedAlike lib email) (joinedRows db userId)
      (joinedRows { db with policies } userId) := by
  have enabled := List.rel_filter (p := fun p : PolicyRow => decide (p.enabled = 1))
    (q := fun p : PolicyRow => decide (p.enabled = 1)) (R := RowAlike lib email) (by
      intro a b alike
      rw [alike.frame]) rows
  refine forall₂_insertionSort ?_ (List.rel_flatMap enabled ?_)
  · intro a b a' b' first second
    unfold JoinedRow.Before ByKeys
    rw [first.visibleSort, first.id, first.member, second.visibleSort, second.id, second.member]
  · intro a b alike
    have id : b.id = a.id := by rw [alike.frame]
    have mode : b.mode = a.mode := by rw [alike.frame]
    dsimp only
    rw [id, mode]
    change List.Forall₂ _ _ (if a.mode = .split ∧ assignedGroup db userId a.id = none then []
      else (db.members.rows.filter fun m => m.policyId = a.id).map
        (JoinedRow.mk b (assignedGroup db userId a.id)))
    split
    next => exact .nil
    next =>
      rw [List.forall₂_map_left_iff, List.forall₂_map_right_iff, List.forall₂_same]
      exact fun m _ => ⟨alike, rfl, rfl⟩

structure PolicyAlike (lib : FoldLibrary) (email : String) (a b : LoadedPolicy) : Prop where
  frame : b = { a with conditions := b.conditions }
  conditions : SameFor lib email a.mode a.conditions b.conditions

theorem loadedPolicy_alike (alike : JoinedAlike lib email a b) :
    Alike (PolicyAlike lib email) (loadedPolicy lib.toEntryLibrary a)
      (loadedPolicy lib.toEntryLibrary b) := by
  have frame := alike.policy.frame
  have decoded := alike.policy.conditions
  unfold loadedPolicy
  have id : b.policy.id = a.policy.id := by rw [frame]
  rw [id, alike.group]
  refine Alike.bind (decoded.mapError _) fun conditions others same => .returned ⟨?_, same⟩
  rw [frame]

theorem addRow_alike {l m : List LoadedPolicy} (loaded : List.Forall₂ (PolicyAlike lib email) l m)
    (alike : JoinedAlike lib email a b) :
    Alike (List.Forall₂ (PolicyAlike lib email)) (addRow lib.toEntryLibrary l a)
      (addRow lib.toEntryLibrary m b) := by
  unfold addRow
  rw [alike.id, alike.member]
  split
  next => exact .returned loaded
  next =>
    refine Alike.bind (R := List.Forall₂ (PolicyAlike lib email)) ?_ ?_
    · unfold ensureLoaded
      have known : l.any (fun x => decide (x.id = a.id)) = m.any fun x => decide (x.id = b.id) := by
        refine any_related ?_ loaded
        intro x y same
        rw [same.frame, alike.id]
      rw [known]
      split
      next => exact .returned loaded
      next =>
        refine (loadedPolicy_alike alike).bind fun x y same => .returned ?_
        exact List.rel_append loaded (.cons same .nil)
    · intro l m loaded
      refine .returned (List.rel_map ?_ loaded)
      intro x y same
      have id : y.id = x.id := by rw [same.frame]
      have members : y.members = x.members := by rw [same.frame]
      dsimp only
      rw [id]
      split
      next =>
        unfold LoadedPolicy.addMember
        rw [members]
        split
        next =>
          refine ⟨?_, same.conditions⟩
          rw [same.frame]
        next => exact same
      next => exact same

theorem loadClientEntryUserPolicies_alike
    (rows : List.Forall₂ (RowAlike lib email) db.policies.rows policies.rows) (userId : Int) :
    Alike (List.Forall₂ (PolicyAlike lib email))
      (loadClientEntryUserPolicies lib.toEntryLibrary db userId)
      (loadClientEntryUserPolicies lib.toEntryLibrary { db with policies } userId) := by
  refine (foldlM_alike (R := JoinedAlike lib email) (S := List.Forall₂ (PolicyAlike lib email))
    (fun _ _ _ _ loaded alike => addRow_alike loaded alike)
    (joinedRows_alike rows userId) .nil).bind fun l m loaded => .returned ?_
  refine List.rel_filter ?_ loaded
  intro x y same
  rw [same.frame]

theorem matchedPolicy_alike {l m : List LoadedPolicy}
    (loaded : List.Forall₂ (PolicyAlike lib email) l m) (apart : Apart lib email subject)
    (serverType : String) (serverId : Int) :
    (matchedPolicy lib.toEntryLibrary subject m serverType serverId).map LoadedPolicy.ruling =
      (matchedPolicy lib.toEntryLibrary subject l serverType serverId).map LoadedPolicy.ruling := by
  have found := find?_related (p := fun policy : LoadedPolicy =>
      clientEntryPolicyHasMember lib.toEntryLibrary policy.members (serverType, serverId) &&
        matchAll lib.toStandardLibrary (runtimeConditions policy.mode policy.conditions) subject &&
        (policy.mode ≠ .split || policy.assignedEntryHost ≠ ""))
    (q := fun policy : LoadedPolicy =>
      clientEntryPolicyHasMember lib.toEntryLibrary policy.members (serverType, serverId) &&
        matchAll lib.toStandardLibrary (runtimeConditions policy.mode policy.conditions) subject &&
        (policy.mode ≠ .split || policy.assignedEntryHost ≠ "")) (by
      intro x y same
      have passes := same.conditions subject apart
      rw [same.frame]
      dsimp only
      rw [passes]) loaded
  refine (map_eq_of_rel ?_ found).symm
  intro x y same
  rw [same.frame]
  rfl

theorem ruling_unchanged
    (rows : List.Forall₂ (RowChanged lib email chosen) db.policies.rows policies.rows)
    (apart : Apart lib email subject) (userId : Int) (serverType : String) (serverId : Int) :
    (loadClientEntryUserPolicies lib.toEntryLibrary { db with policies } userId).map (fun loaded =>
      (matchedPolicy lib.toEntryLibrary subject loaded serverType serverId).map
        LoadedPolicy.ruling) =
      (loadClientEntryUserPolicies lib.toEntryLibrary db userId).map fun loaded =>
        (matchedPolicy lib.toEntryLibrary subject loaded serverType serverId).map
          LoadedPolicy.ruling := by
  have alike := loadClientEntryUserPolicies_alike (rows.imp fun _ _ changed => changed.alike) userId
  exact (alike.map_eq fun l m loaded =>
    (matchedPolicy_alike loaded apart serverType serverId).symm).symm

end

end ForestPanel.SupportEntry
