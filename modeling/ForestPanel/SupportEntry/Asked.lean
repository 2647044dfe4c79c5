import ForestPanel.SupportEntry.Change
import ForestPanel.SupportEntry.Lists

/-!
# What is asked of a list

A change moves one address out of the list of a rule or into it. Lists are searched with
`strings.EqualFold`, which a listed address may pass without being the same; on a plain list it
does not.
-/
namespace ForestPanel.SupportEntry

open ClientEntry Outcome

def askedList (emails : List String) (email : String) (chosen : Bool) : List String :=
  if decide (email ∈ emails) = chosen then emails
  else (emails.filter fun listed => listed ≠ email) ++ if chosen = true then [email] else []

def Plain (lib : FoldLibrary) (emails : List String) (email : String) : Prop :=
  ∀ listed ∈ emails, lib.foldsTo listed email = true → listed = email

structure HasList (lib : FoldLibrary) (conditions : List Condition) (index : Nat)
    (emails : List String) : Prop where
  stored : Stored lib conditions
  only : emailIndexOf conditions = some index
  found : conditions[index]? = some (emailList (emails.map rawQuoted))
  holds : Holds lib (emails.map rawQuoted) emails

variable {p : SupportEntryMembershipPolicy}

section

variable {lib : FoldLibrary} {emails : List String} {email : String} {chosen : Bool}
  {conditions : List Condition} {index : Nat}

theorem mem_askedList {other : String} :
    other ∈ askedList emails email chosen ↔
      (other ∈ emails ∧ other ≠ email) ∨ (other = email ∧ chosen = true) := by
  unfold askedList
  split
  next known =>
    by_cases same : other = email
    · subst same
      simp [← known]
    · simp [same]
  next =>
    cases chosen with
    | true => simp
    | false => simp

theorem askedList_others :
    (askedList emails email chosen).filter (fun listed => listed ≠ email) =
      emails.filter fun listed => listed ≠ email := by
  unfold askedList
  split
  next => rfl
  next =>
    cases chosen with
    | true => simp
    | false => simp

theorem askedList_nodup (distinct : emails.Nodup) : (askedList emails email chosen).Nodup := by
  unfold askedList
  split
  next => exact distinct
  next =>
    have kept := distinct.filter fun listed => listed ≠ email
    cases chosen with
    | false => simpa using kept
    | true =>
      refine List.nodup_append.mpr ⟨kept, List.nodup_singleton email, ?_⟩
      intro other member listed again
      rw [if_pos rfl, List.mem_singleton] at again
      have apart := (List.mem_filter.mp member).2
      rintro rfl
      simp [again] at apart

theorem exists_list (stored : Stored lib conditions) (only : emailIndexOf conditions = some index) :
    ∃ emails, HasList lib conditions index emails := by
  have searched : conditions.findIdx? Condition.isEmailList = some index := by
    unfold emailIndexOf at only
    split at only
    next => exact only
    next => cases only
  obtain ⟨inside, isList, -⟩ := List.findIdx?_eq_some_iff_getElem.mp searched
  have member := List.getElem_mem inside
  obtain ⟨values, emails, same, holds⟩ := holds_of_stored isList (stored _ member)
  have found : conditions[index]? = some (emailList values) := by
    rw [List.getElem?_eq_getElem inside, same]
  obtain ⟨rfl, listed, distinct⟩ := holds
  exact ⟨emails, stored, only, found, rfl, listed, distinct⟩

theorem HasList.parts (has : HasList lib conditions index emails) :
    ∃ before after, before.length = index ∧
      conditions = before ++ emailList (emails.map rawQuoted) :: after ∧
      ∀ values, replaceValues conditions index values = before ++ emailList values :: after := by
  obtain ⟨inside, same⟩ := List.getElem?_eq_some_iff.mp has.found
  have split : conditions = conditions.take index ++
      emailList (emails.map rawQuoted) :: conditions.drop (index + 1) := by
    rw [← same, List.getElem_cons_drop, List.take_append_drop]
  refine ⟨_, _, List.length_take_of_le inside.le, split, fun values => ?_⟩
  rw [replaceValues, List.modify_eq_take_cons_drop inside, same]
  rfl

theorem HasList.replace (has : HasList lib conditions index emails) {others : List String}
    (listed : ∀ other ∈ others, Listed lib other) (distinct : others.Nodup) :
    HasList lib (replaceValues conditions index (others.map rawQuoted)) index others := by
  have holds : Holds lib (others.map rawQuoted) others := ⟨rfl, listed, distinct⟩
  have isList : ∀ values, Condition.isEmailList (emailList values) = true := fun values =>
    isEmailList_iff.mpr ⟨rfl, rfl⟩
  obtain ⟨before, after, place, rfl, replaced⟩ := has.parts
  rw [replaced]
  obtain ⟨stored, only, found, -⟩ := has
  refine ⟨?_, ?_, ?_, holds⟩
  · intro c member
    rcases List.mem_append.mp member with first | rest
    · exact stored c (List.mem_append_left _ first)
    rcases List.mem_cons.mp rest with rfl | last
    · exact stored_of_holds holds
    · exact stored c (List.mem_append_right _ (List.mem_cons_of_mem _ last))
  · rw [← only]
    simp [emailIndexOf, List.countP_append, List.findIdx?_append, List.findIdx?_cons, isList]
  · rw [← place, List.getElem?_append_right le_rfl, Nat.sub_self]
    rfl

theorem HasList.values (has : HasList lib p.conditions p.emailIndex emails) :
    p.values = emails.map rawQuoted := by
  rw [SupportEntryMembershipPolicy.values, has.found]
  rfl

theorem HasList.contains (has : HasList lib p.conditions p.emailIndex emails)
    (plain : Plain lib emails (normalEmail lib email)) :
    supportEntryPolicyContainsEmail lib p email = decide (normalEmail lib email ∈ emails) := by
  rw [Bool.eq_iff_iff, decide_eq_true_eq, supportEntryPolicyContainsEmail, has.values,
    List.any_eq_true]
  constructor
  · rintro ⟨raw, member, found⟩
    obtain ⟨listed, old, rfl⟩ := List.mem_map.mp member
    rw [unmarshalString_rawQuoted, Option.any_some, (has.holds.listed listed old).trimmed]
      at found
    rw [← plain listed old found]
    exact old
  · intro member
    refine ⟨_, List.mem_map.mpr ⟨_, member, rfl⟩, ?_⟩
    rw [unmarshalString_rawQuoted, Option.any_some, (has.holds.listed _ member).trimmed]
    exact decide_eq_true rfl

theorem valuesWithout_quoted (listed : ∀ other ∈ emails, Listed lib other)
    (plain : Plain lib emails email) :
    valuesWithout lib email (emails.map rawQuoted) =
      .ok ((emails.filter fun other => other ≠ email).map rawQuoted) := by
  induction emails with
  | nil => rfl
  | cons other emails ih =>
    have rest := ih (fun v member => listed v (List.mem_cons_of_mem _ member))
      fun v member => plain v (List.mem_cons_of_mem _ member)
    rw [List.map_cons, valuesWithout, unmarshalString_rawQuoted, require, bind_ok, rest, bind_ok,
      (listed other List.mem_cons_self).trimmed]
    by_cases same : other = email
    · subst same
      have folds : lib.foldsTo other other = true := decide_eq_true rfl
      rw [if_pos folds, List.filter_cons_of_neg (by simp)]
      rfl
    · have apart : ¬lib.foldsTo other email = true :=
        fun folds => same (plain other List.mem_cons_self folds)
      rw [if_neg apart, List.filter_cons_of_pos (by simpa using same)]
      rfl

theorem email_update {update : Option String} (has : HasList lib p.conditions p.emailIndex emails)
    (plain : Plain lib emails (normalEmail lib email))
    (returned : supportEntryPolicyEmailUpdate lib p email chosen = .ok update) :
    (update = none ∧ askedList emails (normalEmail lib email) chosen = emails) ∨
    ∃ text, update = some text ∧
      decodeConditions lib.toStandardLibrary text = .ok (replaceValues p.conditions p.emailIndex
        ((askedList emails (normalEmail lib email) chosen).map rawQuoted)) ∧
      ∀ listed ∈ askedList emails (normalEmail lib email) chosen, Listed lib listed := by
  have again : normalEmail lib (normalEmail lib email) = normalEmail lib email :=
    lib.lower_trimSpace_again email
  have inside : ¬p.conditions.length ≤ p.emailIndex := by
    obtain ⟨inside, -⟩ := List.getElem?_eq_some_iff.mp has.found
    omega
  have known : supportEntryPolicyContainsEmail lib p (normalEmail lib email) =
      decide (normalEmail lib email ∈ emails) := by
    rw [← again] at plain
    rw [has.contains plain, again]
  rw [supportEntryPolicyEmailUpdate] at returned
  dsimp only at returned
  rw [if_neg inside, known] at returned
  by_cases same : decide (normalEmail lib email ∈ emails) = chosen
  · rw [if_pos same] at returned
    cases returned
    exact Or.inl ⟨rfl, if_pos same⟩
  · rw [if_neg same, has.values, valuesWithout_quoted has.holds.listed plain, bind_ok] at returned
    have asked : askedList emails (normalEmail lib email) chosen =
        (emails.filter fun other => other ≠ normalEmail lib email) ++
          if chosen = true then [normalEmail lib email] else [] := if_neg same
    have values : (if chosen = true then
        (emails.filter fun other => other ≠ normalEmail lib email).map rawQuoted ++
          [rawQuoted (normalEmail lib email)]
        else (emails.filter fun other => other ≠ normalEmail lib email).map rawQuoted) =
        (askedList emails (normalEmail lib email) chosen).map rawQuoted := by
      rw [asked]
      cases chosen with
      | true => simp
      | false => simp
    simp only [values, bind_eq_ok, pure_eq_ok] at returned
    obtain ⟨text, encoded, rfl⟩ := returned
    obtain ⟨before, after, -, -, replaced⟩ := has.parts
    rw [replaced] at encoded
    refine Or.inr ⟨text, rfl, ?_⟩
    -- the encoding accepted the list, so the address that was added is valid
    have valid : ∀ listed ∈ askedList emails (normalEmail lib email) chosen, Listed lib listed := by
      intro listed member
      rcases mem_askedList.mp member with ⟨old, -⟩ | ⟨rfl, -⟩
      · exact has.holds.listed listed old
      · rw [encodeConditions] at encoded
        simp only [bind_eq_ok] at encoded
        obtain ⟨normalized, accepted, -⟩ := encoded
        obtain ⟨-, -, related⟩ := normalizeFrom_settles lib.toStandardLibrary accepted
        obtain ⟨n, -, list⟩ := related_of_mem related
          (List.mem_append_right before List.mem_cons_self)
        exact listed_of_accepted list (List.mem_map.mpr ⟨_, member, rfl⟩) again
    have asked := has.replace valid (askedList_nodup has.holds.distinct)
    rw [← replaced] at encoded
    exact ⟨decode_of_encode asked.stored encoded, valid⟩

end

end ForestPanel.SupportEntry
