import ForestPanel.AIOps.Tools

/-!
# A turn of the assistant

`runTurn` over any sequence of model answers. A round carries the answer and what
every call of it meets: the directory of panel operations at each look, the replies of
the tool, and how an action that was approved ended. The trace keeps what was
carried out, in its order. A batch may be shorter than the answer and a run shorter
than the turn, which is what a crash leaves.
-/
namespace ForestPanel

namespace AIOps

open Json (Value)
open ClientEntry (StandardLibrary)

inductive PanelRecovery
  | none
  | preflight
  | readOnly
deriving Repr, DecidableEq

/-- The marker in the output of an operation that was refused before it wrote. -/
def preflightMarker (output : String) : Option String := do
  let marker ← Value.ofText output
  let state ← Value.field Value.asString "" "execution_state" marker
  let code ← Value.field Value.asString "" "code" marker
  let recovery ← Value.field Value.asString "" "recovery" marker
  guard (state = "not_executed" ∧ recovery = "panel_preflight")
  some code

def panelActionRecovery (a : ActionState) : PanelRecovery :=
  if a.kind ≠ .panelOperation then .none
  else if a.status = .unknown then .readOnly
  else if a.status ≠ .failed then .none
  else match preflightMarker a.output with
    | none => .none
    | some code =>
      if ["dns_invalid_arguments", "dns_domain_metadata", "dns_record_line_unavailable",
          "dns_preflight_failed", "node_invalid_arguments", "ip_pool_invalid_arguments",
          "entry_order_invalid_arguments", "entry_order_conflict"].contains code then .preflight
      else .none

def knownSSHExitFailure (a : ActionState) : Option Int :=
  if a.kind = .sshCommand ∧ a.status = .failed then a.exitCode.filter fun code => 0 < code
  else none

/-- What a tool call comes to. `proposed` is what the pending action does. -/
structure ToolOutcome where
  proposed : Option Effect
  actionID : Int
  sshExitCode : Option Int
  panelRecovery : PanelRecovery
deriving DecidableEq

/-- `none` is an error, which ends the turn. -/
def automaticActionOutcome (id : Int) (a : ActionState) : Option ToolOutcome :=
  match knownSSHExitFailure a with
  | some code => some ⟨none, id, some code, .none⟩
  | none =>
    if panelActionRecovery a ≠ .none then some ⟨none, id, none, panelActionRecovery a⟩
    else if a.status ≠ .succeeded then none
    else some ⟨none, id, none, .none⟩

inductive Event
  | read (tool : String)
  | queried (operation : PanelOperation)
  | saved (tool : String)
  | executed (effect : Effect) (result : ActionState)
deriving DecidableEq

/-- A write to the panel or a command on a server. -/
def Event.writes : Event → Bool
  | .read _ => false
  | .queried operation => operation.mutating
  | .saved _ => true
  | .executed .. => true

inductive Reply
  | failed (retryable : Bool)
  | answered
  | proposed (id : Int)
deriving Repr, DecidableEq

/-- One attempt: whether the turn is still active, the directory when a read is
approved again and when the tool looks into it, and the tool's reply. -/
structure Attempt where
  active : Bool
  reviewing : List PanelOperation
  directory : List PanelOperation
  reply : Reply
deriving Repr, DecidableEq

/-- The result of a call, or whether its error may be retried. -/
abbrev CallResult := Except Bool ToolOutcome

def answered : ToolOutcome := ⟨none, 0, none, .none⟩

/-- A call that answers at once. -/
def reading (event : Event) : Reply → List Event × CallResult
  | .failed retryable => ([event], .error retryable)
  | _ => ([event], .ok answered)

/-- A call that proposes an action, or answers without one. -/
def proposing (proposed : Option Effect) : Reply → List Event × CallResult
  | .failed retryable => ([], .error retryable)
  | .answered => ([], .ok answered)
  | .proposed id =>
    match proposed with
    | none => ([], .error false)
    | some effect => ([], .ok ⟨some effect, id, none, .none⟩)

/-- `callTool` dispatches over the name of the tool. -/
def callTool (lib : StandardLibrary) (call : ToolCall) (attempt : Attempt) :
    List Event × CallResult :=
  match toolCapabilityAllowed call.name with
  | none => ([], .error false)
  | some capability =>
    if capability.actionKind.isSome then
      proposing (proposal lib attempt.directory call) attempt.reply
    else if call.name = "knowledge_save" ∨ call.name = "knowledge_create" then
      reading (.saved call.name) attempt.reply
    else if call.name = "panel_query" then
      match (operationArgument call).bind (findPanelOperation lib attempt.directory) with
      | none => ([], .error false)
      | some operation =>
        -- a mutating operation has to be proposed
        if operation.mutating then ([], .error false)
        else reading (.queried operation) attempt.reply
    else reading (.read call.name) attempt.reply

def readToolMaxAttempts : Nat := 3

/-- `retryReadTool` from its `attempt`-th attempt on; only a reviewed read is repeated. -/
def retryReadTool (lib : StandardLibrary) (call : ToolCall) (read : Bool) :
    (attempt : Nat) → List Attempt → List Event × Option ToolOutcome
  | _, [] => ([], none)
  | attempt, a :: rest =>
    if a.active = false then ([], none)
    else if 1 < attempt ∧ panelRecoveryReadOnlyCall lib a.reviewing call = false then ([], none)
    else match callTool lib call a with
      | (events, .ok outcome) => (events, some outcome)
      | (events, .error retryable) =>
        if read = false ∨ retryable = false ∨ readToolMaxAttempts ≤ attempt then (events, none)
        else
          let later := retryReadTool lib call read (attempt + 1) rest
          (events ++ later.1, later.2)

/-- What becomes of the approval of an action. The action may have been started
although its end was not seen. -/
inductive Approval
  | refused
  | started (status : ActionStatus) (output : String) (exitCode : Option Int) (seen : Bool)
deriving Repr, DecidableEq

structure CallEnv where
  /-- Full access is still granted. -/
  authorised : Bool
  /-- The directory when the recovery check and the retry loop look at the call. -/
  recovering : List PanelOperation
  reviewing : List PanelOperation
  attempts : List Attempt
  approval : Approval
deriving Repr, DecidableEq

inductive Ending
  | failed
  | completed
  | pending
deriving Repr, DecidableEq

structure TurnState where
  failedSSHCommands : List (String × Int)
  failedPanelOperations : List (String × Int)
  panelReadOnlyActionID : Int
  trace : List Event
  ending : Option Ending
deriving DecidableEq

def startedTurn : TurnState := ⟨[], [], 0, [], none⟩

structure Batch where
  pending : Bool
  halt : Bool
  recoverSSH : Bool
  recoverPanel : Bool
deriving Repr, DecidableEq

def startedBatch : Batch := ⟨false, false, false, false⟩

def Batch.canCall (b : Batch) : Bool := !b.pending && !b.halt && !b.recoverSSH && !b.recoverPanel

/-- The action id under a key of a Go map, and 0 where there is none. -/
def failedAction (failed : List (String × Int)) (key : Option String) : Int :=
  (key.bind fun key => failed.lookup key).getD 0

def remember (failed : List (String × Int)) (key : Option String) (id : Int) :
    List (String × Int) :=
  match key with
  | none => failed
  | some key => (key, id) :: failed

/-- `automaticActionResult`: what was carried out, and the outcome unless it is an
error. -/
def automaticActionResult (effect : Effect) (id : Int) :
    Approval → List Event × Option ToolOutcome
  | .refused => ([], none)
  | .started status output exitCode seen =>
    if id ≤ 0 then ([], none)
    else
      let state : ActionState := ⟨effect.kind, status, output, exitCode⟩
      ([.executed effect state], if seen then automaticActionOutcome id state else none)

structure CallKeys where
  command : Option String
  operation : Option String

/-- What the turn keeps of an automatic action that ended with an outcome. -/
def TurnState.recover (turn : TurnState) (batch : Batch) (keys : CallKeys) (outcome : ToolOutcome) :
    TurnState × Batch :=
  if outcome.sshExitCode.any (fun code => 0 < code) then
    (⟨remember turn.failedSSHCommands keys.command outcome.actionID, turn.failedPanelOperations,
        turn.panelReadOnlyActionID, turn.trace, turn.ending⟩,
      ⟨batch.pending, batch.halt, true, batch.recoverPanel⟩)
  else match outcome.panelRecovery with
    | .none => (turn, batch)
    | .preflight =>
      (⟨turn.failedSSHCommands,
          remember turn.failedPanelOperations keys.operation outcome.actionID,
          turn.panelReadOnlyActionID, turn.trace, turn.ending⟩,
        ⟨batch.pending, batch.halt, batch.recoverSSH, true⟩)
    | .readOnly =>
      (⟨turn.failedSSHCommands, turn.failedPanelOperations, outcome.actionID, turn.trace,
          turn.ending⟩,
        ⟨batch.pending, batch.halt, batch.recoverSSH, true⟩)

def TurnState.record (turn : TurnState) (events : List Event) : TurnState :=
  ⟨turn.failedSSHCommands, turn.failedPanelOperations, turn.panelReadOnlyActionID,
    turn.trace ++ events, turn.ending⟩

def Batch.halted (b : Batch) : Batch := ⟨b.pending, true, b.recoverSSH, b.recoverPanel⟩

/-- The tool is called, and under full access the action that it proposed is approved. -/
def invoke (lib : StandardLibrary) (full : Bool) (turn : TurnState) (batch : Batch) (keys : CallKeys)
    (call : ToolCall) (env : CallEnv) : TurnState × Batch :=
  let answer := retryReadTool lib call (panelRecoveryReadOnlyCall lib env.reviewing call) 1
    env.attempts
  let turn := turn.record answer.1
  match answer.2.bind fun outcome => outcome.proposed.map fun effect => (effect, outcome.actionID)
  with
  | none => (turn, batch)
  | some (effect, id) =>
    if full then
      let result := automaticActionResult effect id env.approval
      let turn := turn.record result.1
      match result.2 with
      | none => (turn, batch.halted)
      | some outcome => turn.recover batch keys outcome
    else (turn, ⟨true, batch.halt, batch.recoverSSH, batch.recoverPanel⟩)

def handleCall (lib : StandardLibrary) (sha256 : String → String) (full : Bool)
    (s : TurnState × Batch) (call : ToolCall × CallEnv) : TurnState × Batch :=
  let turn := s.1
  let batch := s.2
  let keys : CallKeys :=
    ⟨sshRecoveryCommandKey sha256 call.1, panelRecoveryOperationKey sha256 call.1⟩
  if batch.canCall = false then s
  else if full ∧ call.2.authorised = false then (turn, batch.halted)
  else if 0 < turn.panelReadOnlyActionID ∧
      panelRecoveryReadOnlyCall lib call.2.recovering call.1 = false then s
  else if full ∧ 0 < failedAction turn.failedPanelOperations keys.operation then
    (turn, ⟨batch.pending, batch.halt, batch.recoverSSH, true⟩)
  else if full ∧ 0 < failedAction turn.failedSSHCommands keys.command then
    (turn, ⟨batch.pending, batch.halt, true, batch.recoverPanel⟩)
  else invoke lib full turn batch keys call.1 call.2

structure Round where
  /-- The operator and full access are checked, and the draft and the contexts are
  brought up to date. -/
  ready : Bool
  /-- What the provider answers; `none` is an error. -/
  answer : Option (List (ToolCall × CallEnv))
  /-- Full access is still granted behind the answer. -/
  authorised : Bool
  /-- The messages of the round are appended. -/
  saved : Bool
  /-- The same empty ticket queries came again. -/
  stopEmptyQueries : Bool
deriving Repr, DecidableEq

def TurnState.finish (turn : TurnState) (ending : Ending) : TurnState :=
  ⟨turn.failedSSHCommands, turn.failedPanelOperations, turn.panelReadOnlyActionID, turn.trace,
    some ending⟩

/-- An unsettled write keeps the turn from counting as completed. -/
def TurnState.closing (turn : TurnState) : Ending :=
  if 0 < turn.panelReadOnlyActionID then .failed else .completed

def playRound (lib : StandardLibrary) (sha256 : String → String) (full : Bool) (turn : TurnState)
    (round : Round) : TurnState :=
  if round.ready = false then turn.finish .failed
  else match round.answer with
    | none => turn.finish .failed
    | some calls =>
      if full ∧ round.authorised = false then turn.finish .failed
      else if calls = [] then
        if round.saved then turn.finish turn.closing else turn.finish .failed
      else
        let s := calls.foldl (handleCall lib sha256 full) (turn, startedBatch)
        if round.saved = false then s.1.finish .failed
        else if s.2.canCall ∧ round.stopEmptyQueries then s.1.finish s.1.closing
        else if s.2.pending then s.1.finish .pending
        else if s.2.halt then s.1.finish .failed
        else s.1

def standardMaxRounds : Nat := 6

def playRounds (lib : StandardLibrary) (sha256 : String → String) (full : Bool) :
    Nat → TurnState → List Round → TurnState
  | _, turn, [] => turn
  | round, turn, next :: rest =>
    if turn.ending.isSome then turn
    else if full = false ∧ standardMaxRounds ≤ round then turn.finish .failed
    else playRounds lib sha256 full (round + 1) (playRound lib sha256 full turn next) rest

def runTurn (lib : StandardLibrary) (sha256 : String → String) (full : Bool)
    (rounds : List Round) : TurnState :=
  playRounds lib sha256 full 0 startedTurn rounds

end AIOps

end ForestPanel
