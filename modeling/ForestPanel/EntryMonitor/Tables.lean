import ForestPanel.ClientEntry.Tables

/-!
# The tables of the entry monitor

A monitor watches the entry addresses of one rule: each of its targets is an
address that every enabled probe tries. A state is what one probe last found out
about one target, an event is a notice to the operators, and an operation asks
for the split of a leaf whose address is down. The check constraints of the
tables are fields of the rows.
-/
namespace ForestPanel.EntryMonitor

open Relational ClientEntry

def maxInt64 : Int := 9223372036854775807

def minInt64 : Int := -9223372036854775808

def defaultProbeOfflineSec : Int := 90

/-- A row of `v2_dns_probe`. -/
structure Probe where
  id : Int
  name : String
  enabled : Int
  lastHeartbeatAt : Option Int
deriving DecidableEq

/-- A row of `v2_client_entry_monitor`. -/
structure Monitor where
  id : Int
  policyID : Int
  enabled : Int
  checkIntervalSec : Int
  tcpTimeoutMS : Int
  failureThreshold : Int
  successThreshold : Int
  timing : 0 < checkIntervalSec ∧ 0 < tcpTimeoutMS
  thresholds : 2 ≤ failureThreshold ∧ failureThreshold ≤ 10 ∧ 1 ≤ successThreshold ∧
    successThreshold ≤ 10
deriving DecidableEq

/-- A row of `v2_client_entry_monitor_target`. -/
structure Target where
  id : Int
  monitorID : Int
  sourceKey : String
  name : String
  host : String
  port : Int
  sort : Int
  generation : Int
  autoSplitEnabled : Int
  portInRange : 1 ≤ port ∧ port ≤ 65535
deriving DecidableEq

/-- A row of `v2_client_entry_monitor_state`; `last_success` is `NULL`, 0 or 1. -/
structure State where
  targetID : Int
  probeID : Int
  lastSuccess : Option Bool
  lastLatencyMS : Option Int
  lastError : String
  lastResolvedIP : String
  consecutiveSuccess : Int
  consecutiveFailure : Int
  lastReportedAt : Option Int
deriving DecidableEq

inductive EventType
  | down | recovered | autoSplit | autoSplitIPShortage
deriving DecidableEq, Repr

/-- The two types of notices about the availability of an address. -/
def EventType.availability : EventType → Bool
  | .down | .recovered => true
  | _ => false

/-- A row of `v2_client_entry_monitor_event`. -/
structure Event where
  monitorID : Int
  targetID : Int
  probeID : Option Int
  eventType : EventType
  message : String
  addressKey : Option String
  createdAt : Int
deriving DecidableEq

inductive OperationStatus
  | pending | succeeded | cancelled
deriving DecidableEq, Repr

/-- A row of `v2_client_entry_auto_split_operation`. -/
structure Operation where
  id : Int
  monitorID : Int
  targetID : Int
  targetGeneration : Int
  policyID : Int
  sourceGroupID : Int
  sourceHost : String
  triggerProbeID : Option Int
  triggerResultInboxID : Option Int
  status : OperationStatus
  backupIPs : Option (Int × Int)
  childGroups : Option (Int × Int)
  attempts : Int
  nextAttemptAt : Int
  lastError : String
  completedAt : Option Int
  createdAt : Int
deriving DecidableEq

/-- `UNIQUE (target_id, probe_id)`. -/
def State.key (s : State) : Int × Int := (s.targetID, s.probeID)

/-- `UNIQUE (monitor_id, source_key)`. -/
def Target.source (t : Target) : Int × String := (t.monitorID, t.sourceKey)

abbrev Probes := Table Probe.id Probe.id
abbrev Monitors := Table Monitor.id Monitor.policyID
abbrev Targets := Table Target.id Target.source
abbrev States := Table State.key State.key
abbrev Operations := Table Operation.id Operation.id

/-- `inbox` holds the results that have been taken in, by probe and result. -/
structure MonitorBase where
  rules : RuleBase
  probes : Probes
  monitors : Monitors
  targets : Targets
  states : States
  events : List Event
  operations : Operations
  inbox : List (Int × String)
  operationSeq : Int

def dnsProbeHeartbeatFresh (lastHeartbeat : Option Int) (now offlineSec : Int) : Bool :=
  match lastHeartbeat with
  | none => false
  | some last =>
    if offlineSec ≤ 0 ∨ last < 0 ∨ now < last then false
    else (if minInt64 + offlineSec ≤ now then now - offlineSec else minInt64) ≤ last

/-- `dnsFailoverProbeStateFresh`: two expected cycles, or the offline time if it is shorter. -/
def dnsFailoverProbeStateFresh (lastReportedAt : Option Int)
    (now checkIntervalSec tcpTimeoutMS probeOfflineSec : Int) : Bool :=
  match lastReportedAt with
  | none => false
  | some last =>
    if last < 0 ∨ now < last ∨ checkIntervalSec ≤ 0 ∨ tcpTimeoutMS ≤ 0 ∨ probeOfflineSec ≤ 0 then
      false
    else
      let tcpTimeoutSec := tcpTimeoutMS / 1000 + if tcpTimeoutMS % 1000 ≠ 0 then 1 else 0
      let expectedCycleSec :=
        if checkIntervalSec ≤ maxInt64 - tcpTimeoutSec then checkIntervalSec + tcpTimeoutSec
        else maxInt64
      let cycles := if expectedCycleSec ≤ maxInt64 / 2 then expectedCycleSec * 2 else maxInt64
      let freshnessSec := if probeOfflineSec < cycles then probeOfflineSec else cycles
      (if minInt64 + freshnessSec ≤ now then now - freshnessSec else minInt64) ≤ last

def clientEntryMonitorStateFresh (lastReportedAt : Option Int)
    (now checkIntervalSec tcpTimeoutMS : Int) : Bool :=
  dnsFailoverProbeStateFresh lastReportedAt now checkIntervalSec tcpTimeoutMS maxInt64

/-- The condition of the statements on `last_heartbeat_at`. -/
def heartbeatBetween (lastHeartbeat : Option Int) (now offlineSec : Int) : Bool :=
  lastHeartbeat.any fun last => last ≤ now && now - offlineSec ≤ last

/-- The condition of the statements on `last_reported_at`. -/
def reportedBetween (lastReportedAt : Option Int) (now checkIntervalSec tcpTimeoutMS : Int) : Bool :=
  lastReportedAt.any fun last =>
    last ≤ now && now - (checkIntervalSec + (tcpTimeoutMS + 999) / 1000) * 2 ≤ last

theorem heartbeatBetween_of_fresh {last : Option Int} {now offlineSec : Int}
    (fresh : dnsProbeHeartbeatFresh last now offlineSec = true) :
    heartbeatBetween last now offlineSec = true := by
  cases last with
  | none => cases fresh
  | some last =>
    simp only [dnsProbeHeartbeatFresh] at fresh
    split at fresh
    · cases fresh
    next valid =>
      simp only [heartbeatBetween, Option.any_some, Bool.and_eq_true, decide_eq_true_eq]
      split at fresh <;> rw [decide_eq_true_eq] at fresh <;> omega

theorem reportedBetween_of_fresh {last : Option Int} {now interval timeout : Int}
    (fresh : clientEntryMonitorStateFresh last now interval timeout = true) :
    reportedBetween last now interval timeout = true := by
  cases last with
  | none => cases fresh
  | some last =>
    simp only [clientEntryMonitorStateFresh, dnsFailoverProbeStateFresh] at fresh
    split at fresh
    · cases fresh
    next valid =>
      simp only [reportedBetween, Option.any_some, Bool.and_eq_true, decide_eq_true_eq]
      -- whatever saturates, the window of the code is not the longer one
      have seconds : timeout / 1000 + (if timeout % 1000 ≠ 0 then 1 else 0) =
          (timeout + 999) / 1000 := by
        split <;> omega
      rw [seconds, decide_eq_true_eq] at fresh
      unfold maxInt64 minInt64 at fresh
      unfold maxInt64 at valid
      split at fresh <;> split at fresh <;> omega

theorem fresh_now {now interval timeout : Int} (positive : 0 ≤ now) (timing : 0 < interval ∧ 0 < timeout) :
    clientEntryMonitorStateFresh (some now) now interval timeout = true := by
  have valid : ¬(now < 0 ∨ now < now ∨ interval ≤ 0 ∨ timeout ≤ 0 ∨ maxInt64 ≤ 0) := by
    unfold maxInt64
    omega
  simp only [clientEntryMonitorStateFresh, dnsFailoverProbeStateFresh, if_neg valid,
    decide_eq_true_eq]
  unfold maxInt64 minInt64
  split <;> omega

end ForestPanel.EntryMonitor
