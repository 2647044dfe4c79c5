import Mathlib.Data.List.Basic

/-!
# The kinds of actions, and the tools that propose them

The catalogue of tools is the boundary of what a model may ask for: a tool that is
not listed is refused, and a tool of an action needs the action's domain.
-/
namespace ForestPanel

namespace AIOps

inductive CapabilityDomain
  | panel
  | users
  | orders
  | nodes
  | entries
  | tickets
  | servers
  | knowledge
  | panelOperations
  | paymentConfiguration
deriving Repr, DecidableEq

inductive ActionKind
  | panelOperation
  | userUpdate
  | nodeChange
  | nodeUpdate
  | entryHost
  | monitorRun
  | entryProbeRun
  | entryRuleUpdate
  | entryManualSplit
  | entryAutoSplit
  | entrySplit
  | ticketUpdate
  | ticketSettings
  | sshCommand
  | serverRegister
deriving Repr, DecidableEq

/-- The column `status` of an action. -/
inductive ActionStatus
  | pending
  | running
  | succeeded
  | failed
  | unknown
  | rejected
  | expired
deriving Repr, DecidableEq

/-- What is read of an action's row to judge how it ended. -/
structure ActionState where
  kind : ActionKind
  status : ActionStatus
  output : String
  exitCode : Option Int
deriving Repr, DecidableEq

structure ToolCapability where
  domain : CapabilityDomain
  actionKind : Option ActionKind
deriving Repr, DecidableEq

def toolCapabilities : List (String × ToolCapability) :=
  [("knowledge_search", ⟨.knowledge, none⟩),
    ("knowledge_get", ⟨.knowledge, none⟩),
    ("knowledge_save", ⟨.knowledge, none⟩),
    ("knowledge_create", ⟨.knowledge, none⟩),
    ("panel_operations_list", ⟨.panelOperations, none⟩),
    ("panel_operation_describe", ⟨.panelOperations, none⟩),
    ("panel_query", ⟨.panelOperations, none⟩),
    ("panel_result_read", ⟨.panelOperations, none⟩),
    ("propose_panel_operation", ⟨.panelOperations, some .panelOperation⟩),
    ("panel_status", ⟨.panel, none⟩),
    ("user_lookup", ⟨.users, none⟩),
    ("user_detail", ⟨.users, none⟩),
    ("plans_list", ⟨.users, none⟩),
    ("groups_list", ⟨.users, none⟩),
    ("propose_user_update", ⟨.users, some .userUpdate⟩),
    ("orders_list", ⟨.orders, none⟩),
    ("nodes_list", ⟨.nodes, none⟩),
    ("node_detail", ⟨.nodes, none⟩),
    ("propose_node_change", ⟨.nodes, some .nodeChange⟩),
    ("propose_node_update", ⟨.nodes, some .nodeUpdate⟩),
    ("entry_rules_list", ⟨.entries, none⟩),
    ("entry_simulate", ⟨.entries, none⟩),
    ("entry_health", ⟨.entries, none⟩),
    ("entry_health_detail", ⟨.entries, none⟩),
    ("host_references", ⟨.entries, none⟩),
    ("entry_coverage", ⟨.entries, none⟩),
    ("backup_ips_list", ⟨.entries, none⟩),
    ("propose_entry_host", ⟨.entries, some .entryHost⟩),
    ("monitor_run", ⟨.entries, some .monitorRun⟩),
    ("entry_probe_targets", ⟨.entries, none⟩),
    ("entry_probe_run", ⟨.entries, some .entryProbeRun⟩),
    ("entry_probe_result", ⟨.entries, none⟩),
    ("entry_rule_detail", ⟨.entries, none⟩),
    ("propose_entry_rule_update", ⟨.entries, some .entryRuleUpdate⟩),
    ("entry_split_options", ⟨.entries, none⟩),
    ("propose_entry_manual_split", ⟨.entries, some .entryManualSplit⟩),
    ("entry_split_operation", ⟨.entries, none⟩),
    ("propose_entry_auto_split", ⟨.entries, some .entryAutoSplit⟩),
    ("propose_entry_split", ⟨.entries, some .entrySplit⟩),
    ("tickets_list", ⟨.tickets, none⟩),
    ("tickets_list_global", ⟨.tickets, none⟩),
    ("ticket_get", ⟨.tickets, none⟩),
    ("ticket_message_get", ⟨.tickets, none⟩),
    ("ticket_settings", ⟨.tickets, none⟩),
    ("propose_ticket_update", ⟨.tickets, some .ticketUpdate⟩),
    ("propose_ticket_settings", ⟨.tickets, some .ticketSettings⟩),
    ("servers_list", ⟨.servers, none⟩),
    ("ssh_status", ⟨.servers, some .sshCommand⟩),
    ("propose_ssh_command", ⟨.servers, some .sshCommand⟩),
    ("ssh_server_register", ⟨.servers, some .serverRegister⟩)]

def actionCapabilities : ActionKind → CapabilityDomain
  | .panelOperation => .panelOperations
  | .userUpdate => .users
  | .nodeChange | .nodeUpdate => .nodes
  | .entryHost | .monitorRun | .entryProbeRun | .entryRuleUpdate => .entries
  | .entryManualSplit | .entryAutoSplit | .entrySplit => .entries
  | .ticketUpdate | .ticketSettings => .tickets
  | .sshCommand | .serverRegister => .servers

def capabilityDomainAllowed (domain : CapabilityDomain) : Bool := domain ≠ .paymentConfiguration

def actionCapabilityAllowed (kind : ActionKind) : Bool :=
  capabilityDomainAllowed (actionCapabilities kind)

/-- The capability of a tool, when the catalogue allows the tool. -/
def toolCapabilityAllowed (name : String) : Option ToolCapability :=
  (toolCapabilities.lookup name).filter fun capability =>
    capabilityDomainAllowed capability.domain &&
      capability.actionKind.all fun kind =>
        actionCapabilities kind = capability.domain && actionCapabilityAllowed kind

end AIOps

end ForestPanel
