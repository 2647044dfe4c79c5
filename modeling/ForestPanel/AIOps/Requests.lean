import ForestPanel.Lib.Json

/-!
# A message request and its hash

`requestHash` is the digest of the JSON text of the whole request. Two different
requests have two different texts, so that only a collision of SHA-256 could give
them one hash.
-/
namespace ForestPanel

namespace AIOps

structure SendMessageRequest where
  reasoningEffort : String
  accessVersion : Option Int
  accessMode : String
  sessionID : Int
  model : String
  content : String
  requestID : String
deriving Repr, DecidableEq

/-- A member of a JSON object that is left out when its text is empty. -/
private def textMember (name value : String) : List (List Char × List Char) :=
  if value = "" then [] else [(name.toList, Json.quote value.toList)]

/-- A member that is left out when there is no number. -/
private def numberMember (name : String) (value : Option Int) : List (List Char × List Char) :=
  value.toList.map fun n => (name.toList, Decimal.format n)

private def SendMessageRequest.members (req : SendMessageRequest) :
    List (List Char × List Char) :=
  textMember "reasoning_effort" req.reasoningEffort ++
    (numberMember "access_version" req.accessVersion ++
    (textMember "access_mode" req.accessMode ++
    (numberMember "session_id" (if req.sessionID = 0 then none else some req.sessionID) ++
      [("model".toList, Json.quote req.model.toList),
        ("content".toList, Json.quote req.content.toList),
        ("request_id".toList, Json.quote req.requestID.toList)])))

def SendMessageRequest.marshal (req : SendMessageRequest) : List Char := Json.object req.members

/-- `sha256` is SHA-256 in hexadecimal digits. -/
def requestHash (sha256 : List Char → String) (req : SendMessageRequest) : String :=
  sha256 req.marshal

private def rawValue (name : String) (members : List (List Char × List Char)) :
    Option (List Char) :=
  members.lookup name.toList

private theorem rawValue_textMember (name value : String)
    (rest : List (List Char × List Char)) :
    rawValue name (textMember name value ++ rest) =
      if value = "" then rawValue name rest else some (Json.quote value.toList) := by
  unfold textMember
  split
  · rfl
  · simp [rawValue]

private theorem rawValue_numberMember (name : String) (value : Option Int)
    (rest : List (List Char × List Char)) :
    rawValue name (numberMember name value ++ rest) =
      (value.map Decimal.format).or (rawValue name rest) := by
  cases value with
  | none => rfl
  | some n => simp [rawValue, numberMember]

private theorem toList_beq_false {name other : String} (different : name ≠ other) :
    (name.toList == other.toList) = false :=
  beq_eq_false_iff_ne.mpr fun same => different (String.toList_inj.mp same)

private theorem rawValue_otherText {name other : String} (different : name ≠ other)
    (value : String) (rest : List (List Char × List Char)) :
    rawValue name (textMember other value ++ rest) = rawValue name rest := by
  unfold textMember
  split
  · rfl
  · simp [rawValue, List.lookup_cons, toList_beq_false different]

private theorem rawValue_otherNumber {name other : String} (different : name ≠ other)
    (value : Option Int) (rest : List (List Char × List Char)) :
    rawValue name (numberMember other value ++ rest) = rawValue name rest := by
  cases value with
  | none => rfl
  | some n => simp [rawValue, numberMember, List.lookup_cons, toList_beq_false different]

private theorem eq_of_textValue {a b : String}
    (same : (if a = "" then none else some (Json.quote a.toList)) =
      if b = "" then none else some (Json.quote b.toList)) : a = b := by
  split at same <;> split at same
  next first second => exact first.trans second.symm
  next => cases same
  next => cases same
  next => exact Json.quote_injective (Option.some.inj same)

private theorem eq_of_numberValue {a b : Option Int}
    (same : a.map Decimal.format = b.map Decimal.format) : a = b :=
  Option.map_injective (fun _ _ => Decimal.format_injective) same

private theorem eq_of_session {a b : Int}
    (same : (if a = 0 then none else some a) = if b = 0 then none else some b) : a = b := by
  split at same <;> split at same <;> simp_all

private theorem members_injective {a b : SendMessageRequest} (same : a.members = b.members) :
    a = b := by
  have value : ∀ name, rawValue name a.members = rawValue name b.members :=
    fun name => congrArg (rawValue name) same
  have effort := value "reasoning_effort"
  have version := value "access_version"
  have mode := value "access_mode"
  have session := value "session_id"
  have model := value "model"
  have content := value "content"
  have request := value "request_id"
  simp (disch := decide) only [SendMessageRequest.members, rawValue_otherText,
    rawValue_otherNumber, rawValue_textMember, rawValue_numberMember]
    at effort version mode session model content request
  simp [rawValue, List.lookup_cons] at effort version mode session model content request
  have effort := eq_of_textValue effort
  have version := eq_of_numberValue version
  have mode := eq_of_textValue mode
  have session := eq_of_session (eq_of_numberValue session)
  have model := Json.quote_injective model
  have content := Json.quote_injective content
  have request := Json.quote_injective request
  cases a
  cases b
  simp_all

private theorem reads_members (req : SendMessageRequest) :
    ∀ m ∈ req.members, ∃ shape, Json.Reads m.2 shape := by
  intro m found
  simp only [SendMessageRequest.members, textMember, numberMember, List.mem_append, List.mem_cons,
    List.mem_map, List.not_mem_nil, or_false] at found
  rcases found with text | ⟨n, -, rfl⟩ | text | ⟨n, -, rfl⟩ | rfl | rfl | rfl
  · split at text
    · cases text
    · exact List.mem_singleton.mp text ▸ ⟨_, Json.reads_quote _⟩
  · exact ⟨_, Json.reads_format n⟩
  · split at text
    · cases text
    · exact List.mem_singleton.mp text ▸ ⟨_, Json.reads_quote _⟩
  · exact ⟨_, Json.reads_format n⟩
  · exact ⟨_, Json.reads_quote _⟩
  · exact ⟨_, Json.reads_quote _⟩
  · exact ⟨_, Json.reads_quote _⟩

theorem SendMessageRequest.marshal_injective : Function.Injective SendMessageRequest.marshal := by
  intro a b same
  have texts : Json.object a.members = Json.object b.members := same
  have first := (Json.reads_object (reads_members a)).unmarshal
  rw [texts, (Json.reads_object (reads_members b)).unmarshal] at first
  exact (members_injective (Json.Shape.obj.inj (Option.some.inj first))).symm

end AIOps

end ForestPanel
