import ForestPanel.AIOps.Actions
import ForestPanel.ClientEntry.Conditions
import ForestPanel.Lib.JsonValue
import Mathlib.Data.List.SplitBy
import Mathlib.Data.Option.Basic

/-!
# Tool calls

What a call of the model asks for: the action it proposes, the key under which a
failed request is remembered for the rest of the turn, and whether it may still be
called when the outcome of a write is uncertain.
-/
namespace ForestPanel

namespace AIOps

open Json (Value)
open ClientEntry (StandardLibrary)

structure ToolCall where
  id : String
  name : String
  arguments : String
deriving Repr, DecidableEq

structure PanelOperation where
  name : String
  category : String
  method : String
  path : String
  mutating : Bool
  parameters : String
deriving Repr, DecidableEq

/-- `[a-z][a-z0-9_]*` -/
def operationWord : List Char → Bool
  | [] => false
  | c :: rest => c.isLower && rest.all fun d => d.isLower || d.isDigit || d = '_'

/-- `panelOperationName`: two words or more with a dot between two of them. -/
def panelOperationName (name : String) : Bool :=
  let words := name.toList.splitOn '.'
  2 ≤ words.length && words.all operationWord

/-- `path.Clean` leaves a rooted path as it is: no empty segment, no dots. -/
def cleanPath (path : String) : Bool :=
  path = "/" || (path.toList.tail.splitOn '/').all fun segment =>
    segment ≠ [] && segment ≠ ['.'] && segment ≠ ['.', '.']

def panelOperationPermitted (lib : StandardLibrary) (op : PanelOperation) : Bool :=
  panelOperationName op.name && op.path.toList.head? = some '/' && cleanPath op.path &&
    op.path.toList.all (fun c => !(['%', '?', '#', '\\', '\x00', ':'].contains c)) &&
    ["GET", "POST", "PUT", "PATCH", "DELETE"].contains op.method &&
    ((((lib.lower op.path).toList.splitOn '/').map String.ofList ++ [lib.lower op.category]).all
      fun segment => !(["payment", "payments", "payment_configuration", "ai-ops",
        "ai_ops"].contains segment)) &&
    ((Value.ofText op.parameters).bind (Value.field Value.asString "" "type")) = some "object"

/-- The operation of that name, when there is only one and it is permitted. -/
def findPanelOperation (lib : StandardLibrary) (directory : List PanelOperation) (name : String) :
    Option PanelOperation :=
  match directory.filter fun op => op.name = name with
  | [op] => if panelOperationPermitted lib op then some op else none
  | _ => none

variable {lib : StandardLibrary} {directory : List PanelOperation} {call : ToolCall}

theorem findPanelOperation_name {name : String} {op : PanelOperation}
    (found : findPanelOperation lib directory name = some op) : op.name = name ∧ name ≠ "" := by
  unfold findPanelOperation at found
  split at found
  next listed =>
    split at found
    next permitted =>
      cases found
      have member : op ∈ directory.filter fun op => op.name = name := by simp [listed]
      have same : op.name = name := by simpa using (List.mem_filter.mp member).2
      refine ⟨same, ?_⟩
      rintro rfl
      simp [panelOperationPermitted, same, panelOperationName] at permitted
    next => cases found
  next => cases found

def panelRecoveryReadOnlyOperation (name : String) : Bool :=
  ["dns.config", "dns.domains", "dns.records", "dns.record_types", "dns.record_lines",
    "entry_evidence.delivery_hosts", "entry_evidence.delivery_stats",
    "entry_evidence.delivery_users", "entry_evidence.delivery_versions",
    "nodes.list", "node_groups.list", "node_routes.list",
    "entry_rules.list", "entry_rules.order", "entry_rules.simulate", "entry_split.users",
    "entry_collections.list", "entry_monitors.runs", "ip_pool.list",
    "users.detail", "orders.list", "orders.detail", "plans.list", "notices.list", "tickets.list",
    "config.read"].contains name

/-- The tools of the panel that only read, and have been reviewed. -/
def reviewedReads : List String :=
  ["knowledge_search", "knowledge_get",
    "panel_operations_list", "panel_operation_describe", "panel_result_read",
    "panel_status", "user_lookup", "user_detail", "plans_list", "groups_list",
    "orders_list", "nodes_list", "node_detail",
    "entry_rules_list", "entry_simulate", "entry_health", "entry_health_detail",
    "host_references", "entry_coverage", "backup_ips_list",
    "entry_probe_result", "entry_rule_detail", "entry_split_operation",
    "tickets_list", "tickets_list_global", "ticket_get", "ticket_message_get",
    "ticket_settings", "servers_list"]

def operationArgument (call : ToolCall) : Option String :=
  (Value.ofText call.arguments).bind (Value.field Value.asString "" "operation")

def panelRecoveryReadOnlyCall (lib : StandardLibrary) (directory : List PanelOperation)
    (call : ToolCall) : Bool :=
  if reviewedReads.contains call.name then true
  else if call.name = "panel_query" then
    match (operationArgument call).bind (findPanelOperation lib directory) with
    | none => false
    | some operation =>
      !operation.mutating && panelRecoveryReadOnlyOperation operation.name &&
        !(["/dns-failover/entry-monitors", "/server/client-entry/fetch",
          "/server/client-entry/resolve"].contains operation.path)
  else false

/-- What an action does once it runs: a command on a server, an operation of the panel
with its parameters, or another action with the arguments it was proposed with. -/
inductive Effect
  | ssh (server : Int) (command : String) (timeout : Int)
  | panel (operation : String) (parameters : Value)
  | other (kind : ActionKind) (arguments : String)
deriving DecidableEq

def Effect.kind : Effect → ActionKind
  | .ssh .. => .sshCommand
  | .panel .. => .panelOperation
  | .other kind _ => kind

def diagnosticCommand : String :=
  "printf '%s\\n' '--- system ---'; uname -a; printf '%s\\n' '--- uptime ---'; uptime; " ++
    "printf '%s\\n' '--- memory ---'; free -m; printf '%s\\n' '--- disk ---'; df -h; " ++
    "printf '%s\\n' '--- listening sockets ---'; ss -lnt"

def normalizeSSHTimeout (seconds : Int) : Option Int :=
  if seconds = 0 then some 120
  else if seconds < 30 ∨ 1800 < seconds then none
  else some seconds

/-- The command of a call; `ssh_status` has a fixed one. -/
def commandOf (call : ToolCall) (command : String) : String :=
  if call.name = "ssh_status" then diagnosticCommand else command

/-- The command that `ssh_status` or `propose_ssh_command` asks for. -/
def sshProposal (call : ToolCall) : Option Effect := do
  let arguments ← Value.ofText call.arguments
  let server ← Value.field Value.asInt 0 "server_id" arguments
  let command ← Value.field Value.asString "" "command" arguments
  let timeout ← Value.field Value.asInt 0 "timeout_seconds" arguments
  let command := commandOf call command
  guard (0 < server ∧ command ≠ "" ∧ command.utf8ByteSize ≤ 16000 ∧ '\x00' ∉ command.toList)
  let timeout ← normalizeSSHTimeout timeout
  some (.ssh server command timeout)

/-- The parameters as a map, when they are an object. -/
def parametersArgument (arguments : Value) : Option Value :=
  match Value.rawField "parameters" arguments with
  | some (.obj members) => some (Value.canonical (.obj members))
  | _ => none

def panelProposal (lib : StandardLibrary) (directory : List PanelOperation) (call : ToolCall) :
    Option Effect := do
  let arguments ← Value.ofText call.arguments
  let name ← Value.field Value.asString "" "operation" arguments
  let operation ← findPanelOperation lib directory name
  let parameters ← parametersArgument arguments
  guard (operation.mutating = true)
  some (.panel operation.name parameters)

def proposal (lib : StandardLibrary) (directory : List PanelOperation) (call : ToolCall) :
    Option Effect :=
  match (toolCapabilityAllowed call.name).bind ToolCapability.actionKind with
  | none => none
  | some .sshCommand => sshProposal call
  | some .panelOperation => panelProposal lib directory call
  | some kind => some (.other kind call.arguments)

/-- `hashOperation`; `sha256` is SHA-256 in hexadecimal digits. -/
def sshKey (sha256 : String → String) (server : Int) (command : String) : Option String :=
  if trimSpace command = "" then none
  else some (sha256 (String.ofList (Decimal.format server) ++ "\x00" ++ trimSpace command))

def sshRecoveryCommandKey (sha256 : String → String) (call : ToolCall) : Option String := do
  guard (call.name = "propose_ssh_command" ∨ call.name = "ssh_status")
  let arguments ← Value.ofText call.arguments
  let server ← Value.field Value.asInt 0 "server_id" arguments
  let command ← Value.field Value.asString "" "command" arguments
  guard (0 < server)
  sshKey sha256 server (commandOf call command)

def panelKey (sha256 : String → String) (operation : String) (parameters : Value) : String :=
  sha256 (operation ++ "\x00" ++ String.ofList parameters.marshal)

def panelRecoveryOperationKey (sha256 : String → String) (call : ToolCall) : Option String := do
  guard (call.name = "propose_panel_operation")
  let arguments ← Value.ofText call.arguments
  let operation ← Value.field Value.asString "" "operation" arguments
  guard (operation ≠ "")
  let parameters ← parametersArgument arguments
  some (panelKey sha256 operation parameters)

private theorem name_of_kind {name : String} {kind : ActionKind} {tools : List String}
    (listed : (toolCapabilities.filter fun tool => tool.2.actionKind = some kind).map Prod.fst =
      tools)
    (proposes : (toolCapabilityAllowed name).bind ToolCapability.actionKind = some kind) :
    name ∈ tools := by
  obtain ⟨capability, allowed, kind⟩ := Option.bind_eq_some_iff.mp proposes
  obtain ⟨found, -⟩ := Option.filter_eq_some_iff.mp allowed
  obtain ⟨earlier, later, whole, -⟩ := List.lookup_eq_some_iff.mp found
  have member : (name, capability) ∈ toolCapabilities := by
    rw [whole]
    simp
  rw [← listed]
  exact List.mem_map.mpr ⟨(name, capability), by simp [member, kind], rfl⟩

theorem actionKind_of_readOnly (readOnly : panelRecoveryReadOnlyCall lib directory call = true) :
    (toolCapabilityAllowed call.name).bind ToolCapability.actionKind = none ∧
      call.name ≠ "knowledge_save" ∧ call.name ≠ "knowledge_create" := by
  have reads : ∀ name ∈ "panel_query" :: reviewedReads,
      (toolCapabilityAllowed name).bind ToolCapability.actionKind = none ∧
        name ≠ "knowledge_save" ∧ name ≠ "knowledge_create" := by
    decide +kernel
  apply reads
  unfold panelRecoveryReadOnlyCall at readOnly
  split at readOnly
  next listed => exact List.mem_cons_of_mem _ (List.contains_iff_mem.mp listed)
  next =>
    split at readOnly
    next query => exact query ▸ List.mem_cons_self
    next => cases readOnly

theorem proposal_cases {effect : Effect} (proposes : proposal lib directory call = some effect) :
    ((call.name = "propose_ssh_command" ∨ call.name = "ssh_status") ∧
      sshProposal call = some effect ∧ ∃ server command timeout,
        effect = .ssh server command timeout) ∨
    (call.name = "propose_panel_operation" ∧ panelProposal lib directory call = some effect ∧
      ∃ operation parameters, effect = .panel operation parameters) ∨
    ∃ kind, effect = .other kind call.arguments ∧ kind ≠ .sshCommand ∧ kind ≠ .panelOperation := by
  unfold proposal at proposes
  split at proposes
  next => cases proposes
  next kind =>
    left
    have tool : call.name ∈ ["ssh_status", "propose_ssh_command"] :=
      name_of_kind (by decide +kernel) kind
    refine ⟨by simpa [or_comm] using tool, proposes, ?_⟩
    simp only [sshProposal, Option.bind_eq_bind, Option.bind_eq_some_iff] at proposes
    obtain ⟨_, -, _, -, _, -, _, -, _, -, _, -, same⟩ := proposes
    exact ⟨_, _, _, (Option.some.inj same).symm⟩
  next kind =>
    right; left
    have tool : call.name ∈ ["propose_panel_operation"] := name_of_kind (by decide +kernel) kind
    refine ⟨by simpa using tool, proposes, ?_⟩
    simp only [panelProposal, Option.bind_eq_bind, Option.bind_eq_some_iff] at proposes
    obtain ⟨_, -, _, -, _, -, _, -, _, -, same⟩ := proposes
    exact ⟨_, _, (Option.some.inj same).symm⟩
  next kind command operation _ =>
    right; right
    exact ⟨kind, (Option.some.inj proposes).symm, command, operation⟩

theorem sshRecoveryCommandKey_eq {server : Int} {command : String} {timeout : Int}
    (sha256 : String → String) (tool : call.name = "propose_ssh_command" ∨ call.name = "ssh_status")
    (proposes : sshProposal call = some (.ssh server command timeout)) :
    sshRecoveryCommandKey sha256 call = sshKey sha256 server command := by
  simp only [sshProposal, Option.bind_eq_bind, Option.bind_eq_some_iff, Option.guard_eq_some']
    at proposes
  obtain ⟨arguments, read, server', id, command', text, _, -, _, ⟨positive, -⟩, _, -, same⟩ :=
    proposes
  cases same
  simp [sshRecoveryCommandKey, tool, read, id, text, positive]

theorem panelRecoveryOperationKey_eq {operation : String} {parameters : Value}
    (sha256 : String → String) (tool : call.name = "propose_panel_operation")
    (proposes : panelProposal lib directory call = some (.panel operation parameters)) :
    panelRecoveryOperationKey sha256 call = some (panelKey sha256 operation parameters) := by
  simp only [panelProposal, Option.bind_eq_bind, Option.bind_eq_some_iff] at proposes
  obtain ⟨arguments, read, name, text, op, found, _, object, _, -, same⟩ := proposes
  cases same
  obtain ⟨rfl, nonempty⟩ := findPanelOperation_name found
  simp [panelRecoveryOperationKey, tool, read, text, nonempty, object]

end AIOps

end ForestPanel
