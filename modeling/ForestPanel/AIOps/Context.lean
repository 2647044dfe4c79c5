import ForestPanel.AIOps.Messages

/-!
# The context of a request

`compactProviderContext` leaves out older messages until a request fits its budget. The messages of
an old turn go together, and in the current turn the calls of an assistant go with all their
results. The messages it never leaves out are those of the system, the current input, and the two
kinds of data the panel adds.
-/
namespace ForestPanel.AIOps

inductive ContextError
  | tooLarge
  | invalid
  deriving DecidableEq, Repr

def maxContextMessages : Nat := 160

def contextOmittedNotice : String :=
  "部分较早的对话或工具批次已从本次模型上下文省略，原会话和操作记录仍保留。不要把省略内容当作不存在，" ++
  "也不要根据缺少输出判断未执行；涉及配置修改或重试前重新查询现状，unknown结果禁止自动重试。"

def omittedNotice : ProviderMessage where
  role := .system
  content := contextOmittedNotice
  toolCalls := []
  toolCallID := ""
  contextKind := .omitted

def withoutNotices (messages : List ProviderMessage) : List ProviderMessage :=
  messages.filter (fun m => m.contextKind ≠ .omitted)

def hadNotice (messages : List ProviderMessage) : Bool :=
  messages.any (fun m => m.contextKind = .omitted)

def currentFrom (i : Nat) (found : Int) : List ProviderMessage → Int
  | [] => found
  | m :: rest =>
    currentFrom (i + 1)
      (if m.role = .user ∧ m.contextKind ≠ .actions ∧ m.contextKind ≠ .knowledge then i else found)
      rest

def current (source : List ProviderMessage) : Int := currentFrom 0 (-1) source

def isProtected (current : Int) (i : Nat) (m : ProviderMessage) : Bool :=
  m.role = .system || m.contextKind = .actions || m.contextKind = .knowledge || (i : Int) = current

/-- The units of the old turns, the one that is being collected, and those of the current turn; a
unit is a list of places. -/
structure Units where
  old : List (List Nat)
  oldUnit : List Nat
  recent : List (List Nat)

def Units.flushOld (u : Units) : Units :=
  if u.oldUnit ≠ [] then { u with old := u.old ++ [u.oldUnit], oldUnit := [] } else u

def Units.addOld (u : Units) (i : Nat) : Units := { u with oldUnit := u.oldUnit ++ [i] }

def Units.addRecent (u : Units) (unit : List Nat) : Units := { u with recent := u.recent ++ [unit] }

def awaited : List ProviderMessage.ToolCall → List String → Except ContextError (List String)
  | [], pending => .ok pending
  | call :: rest, pending =>
    if call.id = "" ∨ call.id ∈ pending then .error .invalid
    else awaited rest (pending ++ [call.id])

/-- The loop over the messages. The loop over the results of a batch is the case with a batch: the
ids that are pending, and the places of the unit. -/
def walk (current : Int) : List ProviderMessage → Nat → Option (List String × List Nat) → Units →
    Except ContextError Units
  | [], _, some _, _ => .error .invalid
  | [], _, none, u => .ok u.flushOld
  | m :: rest, i, some (pending, unit), u =>
    if m.role ≠ .tool ∨ m.toolCallID ∉ pending then .error .invalid
    else if pending.erase m.toolCallID = [] then
      walk current rest (i + 1) none (u.addRecent (unit ++ [i]))
    else walk current rest (i + 1) (some (pending.erase m.toolCallID, unit ++ [i])) u
  | m :: rest, i, none, u =>
    if isProtected current i m then walk current rest (i + 1) none u.flushOld
    else if (i : Int) < current then
      walk current rest (i + 1) none ((if m.role = .user then u.flushOld else u).addOld i)
    else if m.toolCalls ≠ [] then
      if m.role ≠ .assistant then .error .invalid
      else match awaited m.toolCalls [] with
        | .error e => .error e
        | .ok pending => walk current rest (i + 1) (some (pending, [i])) u
    else if m.role = .tool then .error .invalid
    else walk current rest (i + 1) none (u.addRecent [i])

def keptFrom (keep : Nat → Bool) : Nat → List ProviderMessage → List ProviderMessage
  | _, [] => []
  | i, m :: rest => if keep i then m :: keptFrom keep (i + 1) rest else keptFrom keep (i + 1) rest

/-- The notice comes after the first messages of the system. -/
def insertNotice (out : List ProviderMessage) : List ProviderMessage :=
  out.takeWhile (fun m => m.role = .system) ++
    omittedNotice :: out.dropWhile (fun m => m.role = .system)

def build (source : List ProviderMessage) (keep : Nat → Bool) (omitted : Bool) :
    List ProviderMessage :=
  let out := keptFrom keep 0 source
  if omitted then insertNotice out else out

def fits (budget : Int) (out : List ProviderMessage) : Prop :=
  (byteLength (marshalMessages out) : Int) ≤ budget ∧ out.length ≤ maxContextMessages

instance (budget : Int) (out : List ProviderMessage) : Decidable (fits budget out) :=
  inferInstanceAs (Decidable (_ ∧ _))

/-- The places of earlier inputs that are kept at first, from the latest on. -/
def reserveFrom (source : List ProviderMessage) : Nat → Int → List Nat
  | 0, _ => []
  | i + 1, remaining =>
    match source[i]? with
    | none => reserveFrom source i remaining
    | some m =>
      if m.role ≠ .user ∨ m.contextKind ≠ .none ∨ m.toolCalls ≠ [] then
        reserveFrom source i remaining
      else if (byteLength m.marshal : Int) + 1 ≤ remaining then
        i :: reserveFrom source i (remaining - ((byteLength m.marshal : Int) + 1))
      else reserveFrom source i remaining

/-- Leaves out one unit after the other until the rest fits: what is kept at last, and what fits. -/
def dropUnits (source : List ProviderMessage) (budget : Int) (reserve : List Nat) :
    List (List Nat) → (Nat → Bool) → (Nat → Bool) × Option (List ProviderMessage)
  | [], keep => (keep, none)
  | unit :: rest, keep =>
    let keep := fun i => keep i && !(unit.contains i && !reserve.contains i)
    let out := build source keep true
    if fits budget out then (keep, some out) else dropUnits source budget reserve rest keep

def compactProviderContext (messages : List ProviderMessage) (budget : Int) :
    Except ContextError (List ProviderMessage) :=
  let source := withoutNotices messages
  match walk (current source) source 0 none ⟨[], [], []⟩ with
  | .error e => .error e
  | .ok u =>
    let out := build source (fun _ => true) (hadNotice messages)
    if fits budget out then .ok out
    else
      let reserve := reserveFrom source (current source).toNat (min 16000 (budget.tdiv 4))
      match dropUnits source budget reserve u.old (fun _ => true) with
      | (_, some out) => .ok out
      | (keep, none) =>
        match dropUnits source budget [] (u.old ++ u.recent) keep with
        | (_, some out) => .ok out
        | (_, none) => .error .tooLarge

end ForestPanel.AIOps
