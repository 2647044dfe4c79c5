import ForestPanel.ClientEntry.Normal
import ForestPanel.SupportEntry.Membership
import Mathlib.Data.List.Nodup

/-!
# What is stored of a list

A decoded e-mail list holds different addresses in their normal form. A list that is changed is
stored, and read again as it was made.
-/
namespace ForestPanel.SupportEntry

open ClientEntry Outcome

structure Listed (lib : FoldLibrary) (email : String) : Prop where
  normal : normalEmail lib email = email
  address : lib.parseAddress email = some email ∧ '@' ∈ email.toList

/-- A list of different addresses, in quotes. -/
structure Holds (lib : FoldLibrary) (values emails : List String) : Prop where
  quoted : values = emails.map rawQuoted
  listed : ∀ email ∈ emails, Listed lib email
  distinct : emails.Nodup

variable {seen values : List String} {conditions : List Condition} {c : Condition}

section

variable {lib : FoldLibrary} {emails : List String} {email : String}

theorem Listed.trimmed (listed : Listed lib email) : trimSpace email = email := by
  have trimmed := lib.trimSpace_lower (trimSpace_trimSpace email)
  rw [← normalEmail, listed.normal] at trimmed
  exact trimmed

theorem emailItem_listed (listed : Listed lib email) :
    emailItem lib.toStandardLibrary (rawQuoted email) = .ok (email, rawQuoted email) := by
  have normal : lib.toStandardLibrary.lower (trimSpace email) = email := listed.normal
  simp only [emailItem, rawString_rawQuoted, require, bind_ok, normal, ensure_of _ listed.address]
  rfl

theorem listed_of_emailItem {raw key kept : String}
    (read : emailItem lib.toStandardLibrary raw = .ok (key, kept)) :
    kept = rawQuoted key ∧ Listed lib key := by
  simp only [emailItem, bind_eq_ok, require_eq_ok, ensure_eq_ok, exists_const, pure_eq_ok,
    Prod.mk.injEq] at read
  obtain ⟨address, -, valid, rfl, rfl⟩ := read
  exact ⟨rfl, lib.lower_trimSpace_again _, valid⟩

theorem holds_of_distinctValues {raws : List String}
    (kept : distinctValues (emailItem lib.toStandardLibrary) seen raws = .ok values) :
    ∃ emails, Holds lib values emails ∧ ∀ email ∈ emails, email ∉ seen := by
  induction raws generalizing seen values with
  | nil =>
    cases kept
    exact ⟨[], ⟨rfl, fun _ member => (List.not_mem_nil member).elim, List.nodup_nil⟩,
      fun _ member => (List.not_mem_nil member).elim⟩
  | cons raw raws ih =>
    simp only [distinctValues, bind_eq_ok] at kept
    obtain ⟨⟨key, text⟩, read, kept⟩ := kept
    obtain ⟨rfl, listed⟩ := listed_of_emailItem read
    split at kept
    next => exact ih kept
    next unseen =>
      simp only [bind_eq_ok, pure_eq_ok] at kept
      obtain ⟨others, rest, rfl⟩ := kept
      obtain ⟨emails, holds, apart⟩ := ih rest
      refine ⟨key :: emails, ⟨congrArg _ holds.quoted, ?_, ?_⟩, ?_⟩
      · intro email member
        rcases List.mem_cons.mp member with rfl | later
        · exact listed
        · exact holds.listed email later
      · exact List.nodup_cons.mpr ⟨fun member => apart key member List.mem_cons_self, holds.distinct⟩
      · intro email member
        rcases List.mem_cons.mp member with rfl | later
        · exact unseen
        · exact fun before => apart email later (List.mem_cons_of_mem _ before)

theorem distinctValues_of_holds (holds : Holds lib values emails)
    (unseen : ∀ email ∈ emails, email ∉ seen) :
    distinctValues (emailItem lib.toStandardLibrary) seen values = .ok values := by
  obtain ⟨rfl, listed, distinct⟩ := holds
  induction emails generalizing seen with
  | nil => rfl
  | cons email emails ih =>
    obtain ⟨first, distinct⟩ := List.nodup_cons.mp distinct
    have unseen' : ∀ other ∈ emails, other ∉ email :: seen := by
      intro other member before
      rcases List.mem_cons.mp before with rfl | before
      · exact first member
      · exact unseen other (List.mem_cons_of_mem _ member) before
    have rest := ih unseen' (fun other member => listed other (List.mem_cons_of_mem _ member))
      distinct
    rw [List.map_cons, distinctValues, emailItem_listed (listed email List.mem_cons_self), bind_ok]
    dsimp only
    rw [if_neg (unseen email List.mem_cons_self), rest, bind_ok]
    rfl

theorem emailItem_of_distinctValues {raws : List String}
    (kept : distinctValues (emailItem lib.toStandardLibrary) seen raws = .ok values) :
    ∀ raw ∈ raws, ∃ item, emailItem lib.toStandardLibrary raw = .ok item := by
  induction raws generalizing seen values with
  | nil => exact fun _ member => (List.not_mem_nil member).elim
  | cons raw raws ih =>
    simp only [distinctValues, bind_eq_ok] at kept
    obtain ⟨item, read, kept⟩ := kept
    intro other member
    rcases List.mem_cons.mp member with rfl | later
    · exact ⟨item, read⟩
    split at kept
    next => exact ih kept other later
    next =>
      simp only [bind_eq_ok] at kept
      obtain ⟨others, rest, -⟩ := kept
      exact ih rest other later

def Stored (lib : FoldLibrary) (conditions : List Condition) : Prop :=
  ∀ c ∈ conditions, normalizeCondition lib.toStandardLibrary c = .ok c

theorem stored_of_decode {text : String}
    (decoded : decodeConditions lib.toStandardLibrary text = .ok conditions) :
    Stored lib conditions := by
  simp only [decodeConditions, bind_eq_ok] at decoded
  obtain ⟨values, -, normalized⟩ := decoded
  obtain ⟨-, -, related⟩ := normalizeFrom_settles lib.toStandardLibrary normalized
  intro c member
  obtain ⟨before, -, returned⟩ := related_of_mem related.flip member
  exact (normalizeCondition_settles lib.toStandardLibrary returned).1

theorem normalizeFrom_of_stored (stored : Stored lib conditions) (index : Nat) :
    normalizeFrom lib.toStandardLibrary index conditions = .ok conditions := by
  induction conditions generalizing index with
  | nil => rfl
  | cons c rest ih =>
    have others := ih (fun other member => stored other (List.mem_cons_of_mem _ member)) (index + 1)
    simp only [normalizeFrom, stored c List.mem_cons_self, Except.mapError, bind_ok, others]
    rfl

theorem decode_of_encode {text : String} (stored : Stored lib conditions)
    (encoded : encodeConditions lib.toStandardLibrary conditions = .ok text) :
    decodeConditions lib.toStandardLibrary text = .ok conditions := by
  obtain ⟨other, again, decoded⟩ := decodeConditions_encodeConditions lib.toStandardLibrary
    (normalizeFrom_of_stored stored 0)
  rw [again] at encoded
  cases encoded
  exact decoded

def emailList (values : List String) : Condition := ⟨"email", "in", "", some values, "", ""⟩

theorem isEmailList_iff :
    Condition.isEmailList c = true ↔ c.field = "email" ∧ c.operator = "in" := by
  simp [Condition.isEmailList]

private theorem normalizeCondition_list (isList : Condition.isEmailList c = true) :
    normalizeCondition lib.toStandardLibrary c =
      normalizeEmailCondition lib.toStandardLibrary c := by
  obtain ⟨field, operator⟩ := isEmailList_iff.mp isList
  have word : lib.toStandardLibrary.lower (trimSpace c.field) = c.field := by
    rw [field, show trimSpace "email" = "email" by decide]
    exact lib.lower_word (by decide)
  have test : normalizeOperator lib.toStandardLibrary c.operator = c.operator := by
    have same : lib.toStandardLibrary.lower (trimSpace "in") = "in" := by
      rw [show trimSpace "in" = "in" by decide]
      exact lib.lower_word (by decide)
    rw [operator, normalizeOperator, same, if_neg (by decide), if_neg (by decide)]
  have notNumeric : c.field ∉ ["user_id", "registration_days", "plan_id"] := by
    rw [field]
    decide
  rw [normalizeCondition, word, test, if_neg notNumeric, if_pos field]

theorem holds_of_stored (isList : Condition.isEmailList c = true)
    (stored : normalizeCondition lib.toStandardLibrary c = .ok c) :
    ∃ values emails, c = emailList values ∧ Holds lib values emails := by
  obtain ⟨field, operator⟩ := isEmailList_iff.mp isList
  rw [normalizeCondition_list isList] at stored
  simp only [normalizeEmailCondition, bind_eq_ok, ensure_eq_ok, exists_const, pure_eq_ok] at stored
  obtain ⟨-, values, kept, same⟩ := stored
  obtain ⟨emails, holds, -⟩ := holds_of_distinctValues kept
  refine ⟨values, emails, ?_, holds⟩
  rw [← same, emailList, ← field, ← operator]

theorem stored_of_holds (holds : Holds lib values emails) :
    normalizeCondition lib.toStandardLibrary (emailList values) = .ok (emailList values) := by
  have isList : Condition.isEmailList (emailList values) = true := by
    rw [isEmailList_iff]
    exact ⟨rfl, rfl⟩
  have kept := distinctValues_of_holds holds fun _ _ => List.not_mem_nil
  have operator : (emailList values).operator = "in" := rfl
  have listed : (emailList values).values.getD [] = values := rfl
  rw [normalizeCondition_list isList, normalizeEmailCondition, ensure_of _ operator, bind_ok,
    listed, kept, bind_ok]
  rfl

theorem listed_of_accepted {n : Condition} {email : String}
    (returned : normalizeCondition lib.toStandardLibrary (emailList values) = .ok n)
    (member : rawQuoted email ∈ values) (normal : normalEmail lib email = email) :
    Listed lib email := by
  have isList : Condition.isEmailList (emailList values) = true := by
    rw [isEmailList_iff]
    exact ⟨rfl, rfl⟩
  rw [normalizeCondition_list isList] at returned
  simp only [normalizeEmailCondition, bind_eq_ok, ensure_eq_ok, exists_const] at returned
  obtain ⟨-, kept, accepted, -⟩ := returned
  obtain ⟨⟨key, text⟩, read⟩ := emailItem_of_distinctValues accepted _ member
  obtain ⟨-, listed⟩ := listed_of_emailItem read
  simp only [emailItem, rawString_rawQuoted, require, bind_ok, bind_eq_ok, ensure_eq_ok,
    exists_const, pure_eq_ok, Prod.mk.injEq] at read
  obtain ⟨-, same, -⟩ := read
  have known : lib.toStandardLibrary.lower (trimSpace email) = email := normal
  rw [← same, known] at listed
  exact listed

theorem Listed.nonempty (listed : Listed lib email) : email ≠ "" := by
  rintro rfl
  exact List.not_mem_nil listed.address.2

theorem matchCondition_emailList (holds : Holds lib values emails) (subject : Subject) :
    matchCondition lib.toStandardLibrary (emailList values) subject = true ↔
      normalEmail lib subject.email ∈ emails := by
  have read : ∀ email ∈ emails, (rawString (rawQuoted email)).any (fun expected =>
      normalEmail lib subject.email = lib.toStandardLibrary.lower (trimSpace expected)) = true ↔
      normalEmail lib subject.email = email := by
    intro email member
    have normal : lib.toStandardLibrary.lower (trimSpace email) = email :=
      (holds.listed email member).normal
    rw [rawString_rawQuoted, Option.any_some, normal, decide_eq_true_eq]
  have unfolded : matchCondition lib.toStandardLibrary (emailList values) subject =
      if normalEmail lib subject.email = "" ∨ "in" ≠ "in" then false
      else values.any fun raw => (rawString raw).any fun expected =>
        normalEmail lib subject.email = lib.toStandardLibrary.lower (trimSpace expected) := rfl
  rw [unfolded, holds.quoted]
  by_cases empty : normalEmail lib subject.email = ""
  · rw [if_pos (Or.inl empty)]
    constructor
    · rintro ⟨⟩
    · intro member
      exact absurd empty (holds.listed _ member).nonempty
  · have going : ¬(normalEmail lib subject.email = "" ∨ "in" ≠ "in") := by
      rintro (none | other)
      · exact empty none
      · exact other rfl
    rw [if_neg going, List.any_eq_true]
    constructor
    · rintro ⟨raw, member, found⟩
      obtain ⟨email, listed, rfl⟩ := List.mem_map.mp member
      rw [(read email listed).mp found]
      exact listed
    · intro member
      exact ⟨_, List.mem_map.mpr ⟨_, member, rfl⟩, (read _ member).mpr rfl⟩

theorem unmarshalString_rawQuoted (value : String) :
    unmarshalString (rawQuoted value) = some value := by
  have read := (Json.reads_quote value.toList).unmarshal
  rw [unmarshalString, rawQuoted, read]
  simp

end

end ForestPanel.SupportEntry
