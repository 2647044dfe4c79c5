import ForestPanel.EntryMonitor.Reports
import ForestPanel.Lib.First

/-!
# The pool of backup addresses

An administrator is shown the status of every address of the pool. An automatic split claims
addresses with one query. Both read the probes, what they last found out about an address, and
the entry hosts of the rules.
-/
namespace ForestPanel.BackupIP

open Relational ClientEntry EntryMonitor

/-- A row of `v2_client_entry_backup_ip`. -/
structure BackupRow where
  id : Int
  name : String
  ip : String
  port : Int
  enabled : Int
  checkIntervalSec : Int
  tcpTimeoutMS : Int
  generation : Int
  sort : Int
  quarantineUntil : Int
  createdAt : Int
  updatedAt : Int
  timing : 0 < checkIntervalSec ∧ 0 < tcpTimeoutMS
  value : btrim ip ≠ ""

/-- A row of `v2_client_entry_backup_ip_state`. -/
structure StateRow where
  backupIPID : Int
  probeID : Int
  lastSuccess : Option Int
  lastLatencyMS : Option Int
  lastError : String
  consecutiveSuccess : Int
  consecutiveFailure : Int
  lastReportedAt : Option Int
deriving DecidableEq

/-- `UNIQUE (backup_ip_id, probe_id)` -/
def StateRow.key (s : StateRow) : Int × Int := (s.backupIPID, s.probeID)

/-- The groups of the rules refer to rules. -/
structure PoolBase where
  rules : RuleBase
  probes : Table Probe.id Probe.id
  backups : Table BackupRow.id BackupRow.ip
  states : Table StateRow.key StateRow.key
  owned : ∀ g ∈ rules.groups, ∃ p ∈ rules.policies, p.id = g.policyId

structure Usage where
  kind : String
  policyID : Int
  policyName : String
  splitGroupID : Int
  splitGroupName : String
  splitGroupPath : String
deriving DecidableEq, Repr

/-- `ClientEntryBackupIPState` -/
structure ProbeState where
  probeID : Int
  probeName : String
  probeOnline : Bool
  lastSuccess : Option Bool
  lastLatencyMS : Option Int
  lastError : String
  consecutiveSuccess : Int
  consecutiveFailure : Int
  lastReportedAt : Option Int
  stale : Bool
deriving DecidableEq, Repr

/-- `ClientEntryBackupIPRecord` -/
structure Record where
  row : BackupRow
  used : Bool
  enabledProbeCount : Int
  onlineProbeCount : Int
  healthyProbeCount : Int
  usages : List Usage
  states : List ProbeState
  status : String
  available : Bool

def clientEntryBackupIPSuccessThreshold : Int := 2

section

variable (lib : EntryLibrary) (db : PoolBase)

def loadClientEntryBackupIPProbes : List Probe :=
  (db.probes.rows.filter fun probe => probe.enabled = 1).insertionSort fun a b => a.id ≤ b.id

def canonicalClientEntryBackupIPHost (host : String) : Option String :=
  lib.parseAddr (trimSpace host)

def loadClientEntryBackupIPUsages : List (String × Usage) :=
  let policies := db.rules.policies.rows.insertionSort fun a b => a.id ≤ b.id
  let groups := db.rules.groups.rows.insertionSort
    (FirstMatch.ByKeys GroupRow.policyId GroupRow.id)
  (policies.filterMap fun policy =>
    if btrim policy.entryHost = "" then none
    else (canonicalClientEntryBackupIPHost lib policy.entryHost).map fun ip =>
      (ip, ⟨"policy", policy.id, policy.name, 0, "", ""⟩)) ++
  groups.filterMap fun group =>
    if btrim group.entryHost = "" then none
    else do
      let policy ← db.rules.policies.find? group.policyId
      let ip ← canonicalClientEntryBackupIPHost lib group.entryHost
      some (ip, ⟨"split_group", policy.id, policy.name, group.id, group.name, group.path⟩)

def initialState (now : Int) (probe : Probe) : ProbeState :=
  ⟨probe.id, probe.name, dnsProbeHeartbeatFresh probe.lastHeartbeatAt now defaultProbeOfflineSec,
    none, none, "", 0, 0, none, true⟩

def reportedState (now : Int) (backup : BackupRow) (probe : Probe) (row : StateRow) : ProbeState :=
  { probeID := row.probeID
    probeName := probe.name
    probeOnline := dnsProbeHeartbeatFresh probe.lastHeartbeatAt now defaultProbeOfflineSec
    lastSuccess := row.lastSuccess.map fun value => value = 1
    lastLatencyMS := row.lastLatencyMS
    lastError := row.lastError
    consecutiveSuccess := row.consecutiveSuccess
    consecutiveFailure := row.consecutiveFailure
    lastReportedAt := row.lastReportedAt
    stale := !dnsFailoverProbeStateFresh row.lastReportedAt now backup.checkIntervalSec
      backup.tcpTimeoutMS defaultProbeOfflineSec }

/-- The rows of the states that belong to probes in use. -/
def stateRows : List StateRow :=
  (db.states.rows.filter fun row => ∃ probe ∈ db.probes, probe.id = row.probeID ∧ probe.enabled = 1
    ).insertionSort (FirstMatch.ByKeys StateRow.backupIPID StateRow.probeID)

def recordState (now : Int) (backup : BackupRow) (probes : List Probe) (states : List ProbeState)
    (row : StateRow) : List ProbeState :=
  if row.backupIPID ≠ backup.id then states
  else
    match probes.find? fun probe => probe.id = row.probeID with
    | none => states
    | some probe => states.map fun state =>
      if state.probeID = row.probeID then reportedState now backup probe row else state

def ProbeState.healthy (state : ProbeState) : Bool :=
  state.probeOnline && !state.stale && state.lastSuccess = some true &&
    clientEntryBackupIPSuccessThreshold ≤ state.consecutiveSuccess

def classifyClientEntryBackupIP (item : Record) (now : Int) : String × Bool :=
  if item.row.enabled ≠ 1 then ("disabled", false)
  else if item.used then ("in_use", false)
  else if now < item.row.quarantineUntil then ("quarantined", false)
  else if item.enabledProbeCount = 0 then ("no_probe", false)
  else if item.onlineProbeCount = 0 then ("probe_offline", false)
  else if item.healthyProbeCount = item.onlineProbeCount then ("available", true)
  else if item.states.any fun state =>
      state.probeOnline && !state.stale && state.lastSuccess = some false then
    ("unhealthy", false)
  else ("checking", false)

def hydrated (now : Int) (backup : BackupRow) : Record :=
  let probes := loadClientEntryBackupIPProbes db
  let states := (stateRows db).foldl (recordState now backup probes)
    (probes.map (initialState now))
  let usages := ((loadClientEntryBackupIPUsages lib db).filter fun usage =>
    usage.1 = backup.ip).map Prod.snd
  let item : Record :=
    { row := backup
      used := usages ≠ []
      enabledProbeCount := probes.length
      onlineProbeCount := probes.countP fun probe =>
        dnsProbeHeartbeatFresh probe.lastHeartbeatAt now defaultProbeOfflineSec
      healthyProbeCount := states.countP ProbeState.healthy
      usages
      states
      status := ""
      available := false }
  let (status, available) := classifyClientEntryBackupIP item now
  { item with status, available }

/-- Every row of the list gets its status; the rows have different ids. -/
def hydrateClientEntryBackupIPStatuses (items : List BackupRow) (now : Int) : List Record :=
  items.map (hydrated lib db now)

end

/-- `probe.enabled = 1 AND probe.last_heartbeat_at BETWEEN $1 - $2 AND $1` -/
def probeOnline (now : Int) (probe : Probe) : Prop :=
  probe.enabled = 1 ∧ heartbeatBetween probe.lastHeartbeatAt now defaultProbeOfflineSec = true

instance (now : Int) (probe : Probe) : Decidable (probeOnline now probe) :=
  inferInstanceAs (Decidable (_ ∧ _))

def stateHealthy (now : Int) (backup : BackupRow) (probe : Probe) (state : StateRow) : Prop :=
  state.backupIPID = backup.id ∧ state.probeID = probe.id ∧ state.lastSuccess = some 1 ∧
    clientEntryBackupIPSuccessThreshold ≤ state.consecutiveSuccess ∧
    ∃ last ∈ state.lastReportedAt,
      now - min defaultProbeOfflineSec
        (2 * (backup.checkIntervalSec + (backup.tcpTimeoutMS + 999) / 1000)) ≤ last

instance (now : Int) (backup : BackupRow) (probe : Probe) (state : StateRow) :
    Decidable (stateHealthy now backup probe state) := by
  unfold stateHealthy
  infer_instance

/-- The selection condition of `claimHealthyClientEntryBackupIPs`. -/
structure Claimable (db : PoolBase) (now : Int) (backup : BackupRow) : Prop where
  enabled : backup.enabled = 1
  rested : backup.quarantineUntil ≤ now
  noPolicy : ¬∃ policy ∈ db.rules.policies, btrim policy.entryHost = backup.ip
  noGroup : ¬∃ group ∈ db.rules.groups, btrim group.entryHost = backup.ip
  someProbe : ∃ probe ∈ db.probes, probeOnline now probe
  everyProbe : ¬∃ probe ∈ db.probes, probeOnline now probe ∧
    ¬∃ state ∈ db.states, stateHealthy now backup probe state

end ForestPanel.BackupIP
