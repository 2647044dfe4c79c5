import ForestPanel.EntryMonitor.Reports
import ForestPanel.Lib.Outcome

/-!
# Reports of a probe to the DNS failover

`reportDNSFailoverProbeResults`: one transaction drops the results it has seen before or may
not take, folds the others into one row for each target, joins these with the stored states,
and writes them at once. The row of the probe is locked, so that its reports come one after
the other. A rule's settings are positive, as its validation demands.
-/
namespace ForestPanel.DNSFailover

open EntryMonitor Relational Outcome

/-- A row of `v2_dns_probe`. -/
structure ProbeRow where
  id : Int
  enabled : Int
  lastHeartbeatAt : Option Int
  prewarmCount : Int
deriving DecidableEq

/-- A row of `v2_dns_failover_group`. -/
structure GroupRow where
  id : Int
  enabled : Int
  checkIntervalSec : Int
  tcpTimeoutMS : Int
  probeOfflineSec : Int
  timing : 0 < checkIntervalSec ∧ 0 < tcpTimeoutMS ∧ 0 < probeOfflineSec
deriving DecidableEq

/-- A row of `v2_dns_failover_target`. -/
structure TargetRow where
  id : Int
  groupID : Int
  enabled : Int
deriving DecidableEq

/-- A row of `v2_dns_probe_target_state`. -/
structure StateRow where
  probeID : Int
  targetID : Int
  lastSuccess : Option Int
  lastLatencyMS : Option Int
  lastError : String
  lastResolvedIP : String
  consecutiveSuccess : Int
  consecutiveFailure : Int
  lastReportedAt : Option Int
  warmedUp : Int
deriving DecidableEq

/-- `UNIQUE (probe_id, target_id)` -/
def StateRow.key (s : StateRow) : Int × Int := (s.probeID, s.targetID)

/-- `groupProbes` has the pairs of a group and a probe, `inbox` those of a probe and the id
of a result. -/
structure Base where
  probes : Table ProbeRow.id ProbeRow.id
  groups : Table GroupRow.id GroupRow.id
  targets : Table TargetRow.id TargetRow.id
  groupProbes : List (Int × Int)
  states : Table StateRow.key StateRow.key
  inbox : List (Int × String)

/-- `MIN(g.probe_offline_sec)` over the rules of the probe, or the default. -/
def dnsProbeOfflineThreshold (db : Base) (probeID : Int) : Int :=
  let configured := (db.groups.rows.filter fun g =>
    g.enabled = 1 && (g.id, probeID) ∈ db.groupProbes).map (·.probeOfflineSec)
  match configured.min? with
  | some sec => if 0 < sec then sec else defaultProbeOfflineSec
  | none => defaultProbeOfflineSec

/-- The probe, when it is enabled and its heartbeat is fresh. -/
def reportingProbe (db : Base) (probeID now : Int) : Except ReportError ProbeRow := do
  ensure (0 < probeID) .unauthorized
  let probe ← require ((db.probes.find? probeID).filter (·.enabled = 1)) .unauthorized
  ensure (dnsProbeHeartbeatFresh probe.lastHeartbeatAt now (dnsProbeOfflineThreshold db probeID))
    .heartbeatRequired
  pure probe

/-- The results whose id is neither stored nor seen before in the request. -/
def newResults (db : Base) (probeID : Int) :
    List String → List DNSProbeResult → List DNSProbeResult
  | _, [] => []
  | seen, r :: rest =>
    if (probeID, r.resultID) ∈ db.inbox ∨ r.resultID ∈ seen then newResults db probeID seen rest
    else r :: newResults db probeID (r.resultID :: seen) rest

/-- `dnsProbeAllowedTargetState` -/
structure AllowedTarget where
  group : GroupRow
  lastSuccess : Option Int
  successStreak : Int
  failureStreak : Int
  lastReportedAt : Option Int

/-- The target, when it and its rule are enabled and the rule has the probe. -/
def allowedGroup (db : Base) (probeID targetID : Int) : Option GroupRow := do
  let t ← (db.targets.find? targetID).filter (·.enabled = 1)
  (db.groups.find? t.groupID).filter fun g => g.enabled = 1 && (g.id, probeID) ∈ db.groupProbes

def allowedTarget (db : Base) (probeID targetID : Int) : Option AllowedTarget :=
  (allowedGroup db probeID targetID).map fun group =>
    let state := db.states.find? (probeID, targetID)
    { group
      lastSuccess := state.bind (·.lastSuccess)
      successStreak := (state.map (·.consecutiveSuccess)).getD 0
      failureStreak := (state.map (·.consecutiveFailure)).getD 0
      lastReportedAt := state.bind (·.lastReportedAt) }

/-- `INSERT … ON CONFLICT (probe_id, result_id) DO NOTHING RETURNING result_id` -/
def insertInbox (probeID : Int) :
    List (Int × String) → List DNSProbeResult → List (Int × String) × List String
  | inbox, [] => (inbox, [])
  | inbox, r :: rest =>
    if (probeID, r.resultID) ∈ inbox then insertInbox probeID inbox rest
    else
      let inserted := insertInbox probeID (inbox ++ [(probeID, r.resultID)]) rest
      (inserted.1, r.resultID :: inserted.2)

/-- `dnsProbeStateValues`, without the latency, which the caller sets itself. -/
structure StateValues where
  success : Int
  error : String
  successStreak : Int
  failureStreak : Int

def dnsProbeStateWriteValues (r : DNSProbeResult) : StateValues :=
  if r.success = some true then ⟨1, "", 1, 0⟩ else ⟨0, r.error, 0, 1⟩

/-- `dnsProbeStateBatchRow`, with the target's entry in `stateTransitions`. -/
structure BatchRow where
  targetID : Int
  lastSuccess : Int
  latencyMS : Option Int
  lastError : String
  resolvedIP : String
  initialSuccess : Int
  initialFailure : Int
  transition : Bool

def BatchRow.start (r : DNSProbeResult) : BatchRow where
  targetID := r.targetID
  lastSuccess := (dnsProbeStateWriteValues r).success
  latencyMS := if (dnsProbeStateWriteValues r).success = 0 then none else r.latencyMS
  lastError := (dnsProbeStateWriteValues r).error
  resolvedIP := r.resolvedIP
  initialSuccess := (dnsProbeStateWriteValues r).successStreak
  initialFailure := (dnsProbeStateWriteValues r).failureStreak
  transition := false

/-- A further result of a target that has a row. -/
def BatchRow.add (row : BatchRow) (r : DNSProbeResult) : BatchRow :=
  let values := dnsProbeStateWriteValues r
  { row with
    initialSuccess :=
      if row.lastSuccess ≠ values.success then values.successStreak
      else if values.success = 1 then saturatingDNSProbeStreakAdd row.initialSuccess 1
      else 0
    initialFailure :=
      if row.lastSuccess ≠ values.success then values.failureStreak
      else if values.success = 1 then 0
      else saturatingDNSProbeStreakAdd row.initialFailure 1
    transition := row.transition || row.lastSuccess ≠ values.success
    lastSuccess := values.success
    latencyMS := if values.success = 0 then none else r.latencyMS
    lastError := values.error
    resolvedIP := r.resolvedIP }

abbrev BatchRows := Table BatchRow.targetID BatchRow.targetID

def addResult (rows : BatchRows) (r : DNSProbeResult) : BatchRows :=
  match rows.find? r.targetID with
  | some row => rows.upsert (row.add r)
  | none => rows.upsert (.start r)

/-- The stored streak is gone on with when the stored state is fresh and nothing changed. -/
def BatchRow.join (row : BatchRow) (current : AllowedTarget) (now : Int) : BatchRow :=
  if row.transition = true ∨ current.lastSuccess ≠ some row.lastSuccess ∨
      dnsFailoverProbeStateFresh current.lastReportedAt now current.group.checkIntervalSec
        current.group.tcpTimeoutMS current.group.probeOfflineSec = false then row
  else if row.lastSuccess = 1 then
    { row with
      initialSuccess := saturatingDNSProbeStreakAdd current.successStreak row.initialSuccess
      initialFailure := 0 }
  else
    { row with
      initialSuccess := 0
      initialFailure := saturatingDNSProbeStreakAdd current.failureStreak row.initialFailure }

def joinStored (db : Base) (probeID now : Int) (row : BatchRow) : BatchRow :=
  match allowedTarget db probeID row.targetID with
  | some current => row.join current now
  | none => row

/-- `INSERT … ON CONFLICT (probe_id, target_id) DO UPDATE`, for one of the rows. -/
def writeState (probeID now warmedUp : Int) (states : Table StateRow.key StateRow.key)
    (row : BatchRow) : Table StateRow.key StateRow.key :=
  states.upsert
    { probeID
      targetID := row.targetID
      lastSuccess := some row.lastSuccess
      lastLatencyMS := row.latencyMS
      lastError := row.lastError
      lastResolvedIP := row.resolvedIP
      consecutiveSuccess := row.initialSuccess
      consecutiveFailure := row.initialFailure
      lastReportedAt := some now
      warmedUp :=
        if warmedUp = 1 then 1
        else ((states.find? (probeID, row.targetID)).map (·.warmedUp)).getD warmedUp }

structure ReportResult where
  accepted : Nat
  duplicates : Nat
  skipped : Nat
  prewarmCount : Int
  groupIDs : List Int
deriving DecidableEq

def takenResults (db : Base) (probeID : Int) (results : List DNSProbeResult) :
    List DNSProbeResult × List (Int × String) :=
  let valid := (newResults db probeID [] results).filter fun r =>
    (allowedTarget db probeID r.targetID).isSome
  let inserted := insertInbox probeID db.inbox valid
  (valid.filter (·.resultID ∈ inserted.2), inserted.1)

def writeStates (db : Base) (probeID now warmedUp : Int) (accepted : List DNSProbeResult) :
    Table StateRow.key StateRow.key :=
  ((accepted.foldl addResult .empty).rows.map (joinStored db probeID now)).foldl
    (writeState probeID now warmedUp) db.states

/-- `UPDATE … SET warmed_up = 1 WHERE probe_id = $1 AND warmed_up = 0` -/
def warmUp (probeID : Int) (states : Table StateRow.key StateRow.key) :
    Table StateRow.key StateRow.key :=
  states.updateWhere (fun s => s.probeID = probeID && s.warmedUp = 0)
    (fun s => { s with warmedUp := 1 }) fun _ => ⟨rfl, rfl⟩

def clampPrewarm (count : Int) : Int := if count < 0 then 0 else if 3 < count then 3 else count

def reportDNSFailoverProbeResults (db : Base) (probeID : Int) (results : List DNSProbeResult)
    (now : Int) : Except ReportError (Base × ReportResult) := do
  let probe ← reportingProbe db probeID now
  let prewarm := clampPrewarm probe.prewarmCount
  let (accepted, inbox) := takenResults db probeID results
  let states := writeStates db probeID now (if 3 ≤ prewarm then 1 else 0) accepted
  let advances : Bool := accepted ≠ [] ∧ prewarm < 3
  let prewarmCount := if advances then prewarm + 1 else prewarm
  let skipped := (newResults db probeID [] results).countP fun r =>
    (allowedTarget db probeID r.targetID).isNone
  pure
    ({ db with
        inbox
        states := if advances && prewarmCount = 3 then warmUp probeID states else states
        probes :=
          if advances then
            db.probes.updateWhere (·.id = probeID) (fun p => { p with prewarmCount })
              fun _ => ⟨rfl, rfl⟩
          else db.probes },
      { accepted := accepted.length
        duplicates := results.length - skipped - accepted.length
        skipped
        prewarmCount
        groupIDs := ((accepted.filterMap fun r =>
          (allowedGroup db probeID r.targetID).map (·.id)).dedup).insertionSort (· ≤ ·) })

/-- The state after a report; a refused one changes nothing. -/
def reported (db : Base) (probeID : Int) (now : Int) (results : List DNSProbeResult) : Base :=
  match reportDNSFailoverProbeResults db probeID results now with
  | .ok (db', _) => db'
  | .error _ => db

def acceptedResults (db : Base) (probeID : Int) (now : Int) (results : List DNSProbeResult) :
    List DNSProbeResult :=
  match reportingProbe db probeID now with
  | .ok _ => (takenResults db probeID results).1
  | .error _ => []

end ForestPanel.DNSFailover
