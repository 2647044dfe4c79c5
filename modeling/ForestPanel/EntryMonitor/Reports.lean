import ForestPanel.EntryMonitor.Tables
import ForestPanel.Lib.Decimal

/-!
# Heartbeats and reports of the probes

`HeartbeatDNSProbe`, as far as it touches the entry monitor, and
`reportClientEntryProbeResults`: each result of a report moves the state of one
target for one probe, and a confirmed change is told to the operators once for
an address.
-/
namespace ForestPanel.EntryMonitor

open Relational ClientEntry Outcome

def joinHostPort (host : String) (port : Int) : String :=
  if ':' ∈ host.toList then "[" ++ host ++ "]:" ++ toString port
  else host ++ ":" ++ toString port

/-- One pair of brackets around a historical IPv6 host. -/
def stripBrackets (host : String) : String :=
  if host.toList.head? = some '[' ∧ host.toList.getLast? = some ']' then
    String.ofList host.toList.tail.dropLast
  else host

/-- `none` where the code has the empty key. -/
def clientEntryMonitorAddressKey (lib : EntryLibrary) (host : String) (port : Int) :
    Option String :=
  let host := trimSpace host
  if host = "" ∨ port < 1 ∨ 65535 < port then none
  else
    match normalizeHost lib (stripBrackets host) with
    | .ok normalized => some (joinHostPort normalized port)
    | .error _ => none

/-- `btrim`, which takes away blanks only. -/
def btrim (s : String) : String :=
  String.ofList ((s.toList.dropWhile (· = ' ')).rdropWhile (· = ' '))

/-- `trim(BOTH '[]' FROM …)`. -/
def trimBrackets (s : String) : String :=
  let bracket (c : Char) : Bool := c = '[' || c = ']'
  String.ofList ((s.toList.dropWhile bracket).rdropWhile bracket)

/-- The address of a target as the statement of `clientEntryMonitorAddressHasOtherDown`
writes it. -/
def statementAddress (lib : EntryLibrary) (host : String) (port : Int) : String :=
  let written := lib.lower (trimDot (btrim host))
  if ':' ∈ (btrim host).toList then "[" ++ trimBrackets written ++ "]:" ++ toString port
  else written ++ ":" ++ toString port

def Target.address (lib : EntryLibrary) (t : Target) : Option String :=
  clientEntryMonitorAddressKey lib t.host t.port

def clientEntryProbeTargetOffset : Int := 4611686018427387904

def clientEntryBackupIPProbeTargetOffset : Int := 6917529027641081856

def clientEntryBackupIPProbeTargetLimit : Int := 2305843009213693952

def decodeClientEntryProbeTargetID (targetID : Int) : Option Int :=
  if clientEntryProbeTargetOffset ≤ targetID ∧ targetID < clientEntryBackupIPProbeTargetOffset ∧
      0 < targetID - clientEntryProbeTargetOffset ∧
      targetID - clientEntryProbeTargetOffset < clientEntryBackupIPProbeTargetLimit then
    some (targetID - clientEntryProbeTargetOffset)
  else none

/-- `clientEntryProbeTargetSnapshot`, by the rows it is joined from. -/
structure Snapshot where
  target : Target
  monitor : Monitor
  policy : PolicyRow
  probe : Probe

def watching (db : MonitorBase) (t : Target) : Option (Monitor × PolicyRow) := do
  let m ← (db.monitors.find? t.monitorID).filter fun m => m.enabled = 1
  let p ← (db.rules.policies.find? m.policyID).filter fun p => p.enabled = 1
  pure (m, p)

def loadClientEntryProbeTargetSnapshot (db : MonitorBase) (probeID targetID : Int) :
    Option Snapshot := do
  let target ← db.targets.find? targetID
  let (monitor, policy) ← watching db target
  let probe ← (db.probes.find? probeID).filter fun probe => probe.enabled = 1
  pure ⟨target, monitor, policy, probe⟩

def maxDNSProbeStreak : Int := 2147483647

def saturatingDNSProbeStreakAdd (current increment : Int) : Int :=
  let current := if current < 0 then 0 else current
  if increment ≤ 0 ∨ maxDNSProbeStreak ≤ current then
    if maxDNSProbeStreak < current then maxDNSProbeStreak else current
  else if maxDNSProbeStreak - current < increment then maxDNSProbeStreak
  else current + increment

inductive AvailabilityTransition
  | down | recovered
deriving DecidableEq, Repr

def AvailabilityTransition.eventType : AvailabilityTransition → EventType
  | .down => .down
  | .recovered => .recovered

def confirmClientEntryMonitorAvailability (previous : Option Bool) (success : Bool)
    (successStreak failureStreak failureThreshold successThreshold : Int) :
    Option Bool × Option AvailabilityTransition :=
  if success then
    if previous = some false ∧ successStreak < successThreshold then (previous, none)
    else if previous = some false then (some true, some .recovered)
    else (some true, none)
  else if failureStreak < failureThreshold then (previous, none)
  else if previous = none ∨ previous = some true then (some false, some .down)
  else (some false, none)

/-- Another pair of a target and a probe that says the address is down. -/
def clientEntryMonitorAddressHasOtherDown (lib : EntryLibrary) (db : MonitorBase)
    (addressKey : String) (targetID probeID now probeOfflineSec : Int) : Bool :=
  db.states.rows.any fun s =>
    s.lastSuccess = some false && ¬(s.targetID = targetID ∧ s.probeID = probeID) &&
      (db.probes.find? s.probeID).any (fun probe =>
        probe.enabled = 1 && heartbeatBetween probe.lastHeartbeatAt now probeOfflineSec) &&
      (db.targets.find? s.targetID).any fun t =>
        statementAddress lib t.host t.port = addressKey &&
          (watching db t).any fun mp =>
            reportedBetween s.lastReportedAt now mp.1.checkIntervalSec mp.1.tcpTimeoutMS

/-- `policy:<policy>:split-group:<group>`. -/
def parseClientEntryMonitorSplitGroupSourceKey (sourceKey : String) : Option (Int × Int) :=
  match (trimSpace sourceKey).toList.splitOn ':' with
  | [first, policy, third, group] => do
    guard (first = "policy".toList ∧ third = "split-group".toList)
    let policyID ← (Decimal.parse policy).filter (0 < ·)
    let groupID ← (Decimal.parse group).filter (0 < ·)
    pure (policyID, groupID)
  | _ => none

def splitLeaf (rules : RuleBase) (policyID groupID : Int) : Bool :=
  (rules.groups.find? groupID).any (fun g => g.policyId = policyID) &&
    (rules.policies.find? policyID).any (fun p => p.mode = .split && p.enabled = 1) &&
    isLeaf rules.groups groupID

def Operation.pendingFor (o : Operation) (policyID groupID : Int) : Bool :=
  o.status = .pending && o.policyID = policyID && o.sourceGroupID = groupID

def Operation.sameIncident (o new : Operation) : Prop :=
  o.monitorID = new.monitorID ∧ o.targetID = new.targetID ∧
    o.targetGeneration = new.targetGeneration ∧ o.sourceHost = new.sourceHost

instance (o new : Operation) : Decidable (o.sameIncident new) :=
  inferInstanceAs (Decidable (_ ∧ _))

def newOperation (id : Int) (s : Snapshot) (policyID groupID : Int) (trigger inbox : Option Int)
    (host : String) (now : Int) : Operation where
  id
  monitorID := s.monitor.id
  targetID := s.target.id
  targetGeneration := s.target.generation
  policyID
  sourceGroupID := groupID
  sourceHost := host
  triggerProbeID := trigger
  triggerResultInboxID := inbox
  status := .pending
  backupIPs := none
  childGroups := none
  attempts := 0
  nextAttemptAt := now
  lastError := ""
  completedAt := none
  createdAt := now

/-- `INSERT … ON CONFLICT`: a pending operation of the leaf is the new one's when it is
about something else, and stays when it is about the same. -/
def insertOperation (db : MonitorBase) (new : Operation) : MonitorBase :=
  match db.operations.rows.find? fun o => o.pendingFor new.policyID new.sourceGroupID with
  | some o =>
    if o.sameIncident new then db
    else
      { db with
        operations := db.operations.updateWhere (fun other => other.id = o.id)
          (fun other => { new with id := other.id }) fun _ => ⟨rfl, rfl⟩ }
  | none =>
    match db.operations.insert? new with
    | some operations => { db with operations, operationSeq := db.operationSeq + 1 }
    | none => db

def enqueueClientEntryAutoSplit (db : MonitorBase) (s : Snapshot) (probeID inboxID now : Int) :
    MonitorBase :=
  if s.target.autoSplitEnabled ≠ 1 then db
  else
    match parseClientEntryMonitorSplitGroupSourceKey s.target.sourceKey with
    | none => db
    | some (policyID, groupID) =>
      if policyID ≠ s.monitor.policyID ∨ ¬splitLeaf db.rules policyID groupID then db
      else
        insertOperation db (newOperation (db.operationSeq + 1) s policyID groupID (some probeID)
          (some inboxID) s.target.host now)

/-- The `SET` list that cancels an operation. -/
def Operation.cancel (reason : String) (now : Int) (o : Operation) : Operation :=
  { o with
    status := .cancelled
    lastError := reason
    completedAt := some now }

def cancelClientEntryAutoSplitOnRecovery (db : MonitorBase) (s : Snapshot) (now : Int) :
    MonitorBase :=
  match parseClientEntryMonitorSplitGroupSourceKey s.target.sourceKey with
  | none => db
  | some (policyID, _) =>
    if policyID ≠ s.monitor.policyID then db
    else
      { db with
        operations := db.operations.updateWhere
          (fun o => o.targetID = s.target.id && o.targetGeneration = s.target.generation &&
            o.status = .pending)
          (Operation.cancel "入口已有探针恢复，取消待处理二分" now) fun _ => ⟨rfl, rfl⟩ }

structure DNSProbeResult where
  resultID : String
  targetID : Int
  targetVersion : Int
  success : Option Bool
  latencyMS : Option Int
  error : String
  resolvedIP : String
deriving DecidableEq

inductive ReportError
  | unauthorized
  | heartbeatRequired
deriving DecidableEq, Repr

structure ReportSummary where
  accepted : Nat
  duplicates : Nat
  skipped : Nat
deriving DecidableEq, Repr

/-- The state that a result leaves, and the change it confirms. What was reported too
long ago counts as unknown. -/
def nextState (old : Option State) (s : Snapshot) (r : DNSProbeResult) (now : Int) :
    State × Option AvailabilityTransition :=
  let fresh := old.filter fun state =>
    clientEntryMonitorStateFresh state.lastReportedAt now s.monitor.checkIntervalSec
      s.monitor.tcpTimeoutMS
  let success := r.success = some true
  let successStreak :=
    if success then
      saturatingDNSProbeStreakAdd ((fresh.map (·.consecutiveSuccess)).getD 0) 1
    else 0
  let failureStreak :=
    if success then 0
    else saturatingDNSProbeStreakAdd ((fresh.map (·.consecutiveFailure)).getD 0) 1
  let confirmed := confirmClientEntryMonitorAvailability (fresh.bind (·.lastSuccess)) success
    successStreak failureStreak s.monitor.failureThreshold s.monitor.successThreshold
  ({ targetID := s.target.id
     probeID := s.probe.id
     lastSuccess := confirmed.1
     lastLatencyMS := if success then r.latencyMS else none
     lastError := if success then "" else r.error
     lastResolvedIP := r.resolvedIP
     consecutiveSuccess := successStreak
     consecutiveFailure := failureStreak
     lastReportedAt := some now }, confirmed.2)

def formatClientEntryMonitorTransition (lib : EntryLibrary) (s : Snapshot)
    (transition : AvailabilityTransition) : String :=
  let status := if transition = .recovered then "恢复" else "掉线"
  let address := (s.target.address lib).getD
    (trimSpace s.target.host ++ ":" ++ toString s.target.port)
  "用户入口" ++ status ++ "：" ++ address

def transitionEvent (lib : EntryLibrary) (s : Snapshot) (transition : AvailabilityTransition) (now : Int) :
    Event where
  monitorID := s.monitor.id
  targetID := s.target.id
  probeID := some s.probe.id
  eventType := transition.eventType
  message := formatClientEntryMonitorTransition lib s transition
  addressKey := s.target.address lib
  createdAt := now

/-- An address that some other pair holds down is neither lost again nor back. -/
def shouldEnqueue (lib : EntryLibrary) (db : MonitorBase) (s : Snapshot) (now : Int) : Bool :=
  match s.target.address lib with
  | none => true
  | some key =>
    !clientEntryMonitorAddressHasOtherDown lib db key s.target.id s.probe.id now
      defaultProbeOfflineSec

def announce (lib : EntryLibrary) (db : MonitorBase) (s : Snapshot)
    (transition : AvailabilityTransition) (now : Int) : MonitorBase :=
  if shouldEnqueue lib db s now then
    { db with events := db.events ++ [transitionEvent lib s transition now] }
  else db

def handleTransition (lib : EntryLibrary) (db : MonitorBase) (s : Snapshot) (inboxID now : Int) :
    Option AvailabilityTransition → MonitorBase
  | none => db
  | some .recovered =>
    announce lib (cancelClientEntryAutoSplitOnRecovery db s now) s .recovered now
  | some .down => enqueueClientEntryAutoSplit (announce lib db s .down now) s s.probe.id inboxID now

def saveState (db : MonitorBase) (state : State) : MonitorBase :=
  { db with states := db.states.upsert state }

def observe (lib : EntryLibrary) (db : MonitorBase) (s : Snapshot) (r : DNSProbeResult)
    (inboxID now : Int) : MonitorBase :=
  let next := nextState (db.states.find? (s.target.id, s.probe.id)) s r now
  handleTransition lib (saveState db next.1) s inboxID now next.2

/-- A report on its way: the results it has seen, what it answers, and the base. -/
structure Reporting where
  seen : List String
  summary : ReportSummary
  base : MonitorBase

def Reporting.skip (st : Reporting) : Reporting :=
  { st with summary := { st.summary with skipped := st.summary.skipped + 1 } }

def Reporting.duplicate (st : Reporting) : Reporting :=
  { st with summary := { st.summary with duplicates := st.summary.duplicates + 1 } }

/-- The inbox remembers the result, so that it counts once. -/
def remember (db : MonitorBase) (probeID : Int) (r : DNSProbeResult) : MonitorBase :=
  { db with inbox := db.inbox ++ [(probeID, r.resultID)] }

def Reporting.accept (lib : EntryLibrary) (probeID now : Int) (st : Reporting) (s : Snapshot)
    (r : DNSProbeResult) : Reporting :=
  let base := remember st.base probeID r
  { st with
    summary := { st.summary with accepted := st.summary.accepted + 1 }
    base := observe lib base s r base.inbox.length now }

def takeResult (lib : EntryLibrary) (probeID now : Int) (st : Reporting) (r : DNSProbeResult) :
    Reporting :=
  if r.resultID ∈ st.seen then st.duplicate
  else
    let st := { st with seen := r.resultID :: st.seen }
    match (decodeClientEntryProbeTargetID r.targetID).bind
        (loadClientEntryProbeTargetSnapshot st.base probeID) with
    | none => st.skip
    | some s =>
      if r.targetVersion ≤ 0 ∨ r.targetVersion ≠ s.target.generation then st.skip
      else if (probeID, r.resultID) ∈ st.base.inbox then st.duplicate
      else st.accept lib probeID now s r

def admitReport (db : MonitorBase) (probeID now : Int) : Except ReportError Unit := do
  let probe ← require (db.probes.find? probeID) .unauthorized
  ensure (probe.enabled = 1) .unauthorized
  ensure (dnsProbeHeartbeatFresh probe.lastHeartbeatAt now defaultProbeOfflineSec)
    .heartbeatRequired

/-- The advisory lock lets one report after the other through. -/
def reportClientEntryProbeResults (lib : EntryLibrary) (db : MonitorBase) (probeID : Int)
    (results : List DNSProbeResult) (now : Int) : Except ReportError (ReportSummary × MonitorBase) :=
  if results = [] then pure (⟨0, 0, 0⟩, db)
  else do
    admitReport db probeID now
    let st := results.foldl (takeResult lib probeID now) ⟨[], ⟨0, 0, 0⟩, db⟩
    pure (st.summary, st.base)

def beat (db : MonitorBase) (probeID now : Int) : MonitorBase :=
  { db with
    probes := db.probes.updateWhere (fun p => p.id = probeID)
      (fun p => { p with lastHeartbeatAt := some now }) fun _ => ⟨rfl, rfl⟩ }

def forget (db : MonitorBase) (probeID : Int) : MonitorBase :=
  { db with states := db.states.deleteWhere fun s => s.probeID = probeID }

/-- A probe that comes back after `offlineSec`, the shortest offline time of its failover
groups, starts anew: its states are deleted. -/
def heartbeatDNSProbe (db : MonitorBase) (probeID now offlineSec : Int) :
    Except ReportError MonitorBase := do
  let probe ← require (db.probes.find? probeID) .unauthorized
  ensure (probe.enabled = 1) .unauthorized
  if dnsProbeHeartbeatFresh probe.lastHeartbeatAt now offlineSec then pure (beat db probeID now)
  else pure (beat (forget db probeID) probeID now)

end ForestPanel.EntryMonitor
