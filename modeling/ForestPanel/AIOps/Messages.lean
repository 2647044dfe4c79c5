import ForestPanel.Lib.Json

/-!
# Messages

The messages sent to a provider, and their size as JSON. The kind of a message is for the panel
alone and is not sent: the panel marks the messages it has put in itself.
-/
namespace ForestPanel.AIOps

inductive MessageRole
  | system
  | user
  | assistant
  | tool
  | other (name : String)
  deriving DecidableEq, Repr

def MessageRole.text : MessageRole → String
  | .system => "system"
  | .user => "user"
  | .assistant => "assistant"
  | .tool => "tool"
  | .other name => name

inductive ContextKind
  | none
  | actions
  | knowledge
  | omitted
  deriving DecidableEq, Repr

structure ProviderMessage.ToolFunction where
  name : String
  arguments : String
  deriving DecidableEq, Repr

structure ProviderMessage.ToolCall where
  id : String
  type : String
  function : ProviderMessage.ToolFunction
  deriving DecidableEq, Repr

structure ProviderMessage where
  role : MessageRole
  content : String
  toolCalls : List ProviderMessage.ToolCall
  toolCallID : String
  contextKind : ContextKind
  deriving DecidableEq, Repr

open Json

def ProviderMessage.ToolFunction.marshal (f : ProviderMessage.ToolFunction) : List Char :=
  object [("name".toList, quote f.name.toList), ("arguments".toList, quote f.arguments.toList)]

def ProviderMessage.ToolCall.marshal (call : ProviderMessage.ToolCall) : List Char :=
  object [("id".toList, quote call.id.toList), ("type".toList, quote call.type.toList),
    ("function".toList, call.function.marshal)]

def ProviderMessage.marshal (m : ProviderMessage) : List Char :=
  object ([("role".toList, quote m.role.text.toList), ("content".toList, quote m.content.toList)] ++
    (if m.toolCalls = [] then []
      else [("tool_calls".toList, array (m.toolCalls.map ProviderMessage.ToolCall.marshal))]) ++
    (if m.toolCallID = "" then [] else [("tool_call_id".toList, quote m.toolCallID.toList)]))

def marshalMessages (messages : List ProviderMessage) : List Char :=
  array (messages.map ProviderMessage.marshal)

def byteLength : List Char → Nat
  | [] => 0
  | c :: rest => c.utf8Size + byteLength rest

theorem byteLength_append (first second : List Char) :
    byteLength (first ++ second) = byteLength first + byteLength second := by
  induction first with
  | nil => rw [byteLength, Nat.zero_add, List.nil_append]
  | cons c rest ih => rw [List.cons_append, byteLength, ih, byteLength, Nat.add_assoc]

private theorem byteLength_commas_cons {first : List Char} {rest : List (List Char)}
    (more : rest ≠ []) :
    byteLength (commas (first :: rest)) = byteLength first + 1 + byteLength (commas rest) := by
  obtain ⟨next, others, rfl⟩ := List.exists_cons_of_ne_nil more
  have comma : ','.utf8Size = 1 := by decide
  rw [commas, byteLength_append, byteLength, comma]
  · omega
  · simp

theorem byteLength_commas_insert (before after : List (List Char)) (raw : List Char) :
    byteLength (commas (before ++ after)) ≤ byteLength (commas (before ++ raw :: after)) := by
  induction before with
  | nil =>
    by_cases last : after = []
    · subst last
      have none : byteLength (commas []) = 0 := rfl
      rw [List.append_nil, none]
      exact Nat.zero_le _
    · rw [List.nil_append, List.nil_append, byteLength_commas_cons last]
      omega
  | cons first rest ih =>
    have more : rest ++ raw :: after ≠ [] := by simp
    rw [List.cons_append, List.cons_append, byteLength_commas_cons more]
    by_cases last : rest ++ after = []
    · rw [last, commas]
      omega
    · rw [byteLength_commas_cons last]
      omega

theorem byteLength_messages_insert (before after : List ProviderMessage) (m : ProviderMessage) :
    byteLength (marshalMessages (before ++ after)) ≤
      byteLength (marshalMessages (before ++ m :: after)) := by
  have longer := byteLength_commas_insert (before.map ProviderMessage.marshal)
    (after.map ProviderMessage.marshal) m.marshal
  have size : ∀ raws, byteLength (array raws) =
      '['.utf8Size + (byteLength (commas raws) + byteLength [']']) := by
    intro raws
    rw [array, byteLength, byteLength_append]
  rw [marshalMessages, marshalMessages, List.map_append, List.map_append, List.map_cons, size, size]
  omega

end ForestPanel.AIOps
