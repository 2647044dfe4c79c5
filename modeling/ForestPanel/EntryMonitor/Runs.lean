import ForestPanel.EntryMonitor.Reports
import ForestPanel.Lib.Transition

/-!
# Manual runs of the entry monitor

A run fixes its pairs of a target and a probe when it starts, and the reports of the probes
count them off. Both are transactions of several statements: a start holds an advisory lock
of its own, a report holds the one of the monitor events, and both lock the rows of the runs
they touch. What a transaction has written is seen by the others when it is committed.
-/
namespace ForestPanel.EntryMonitor.Runs

open Relational ClientEntry

def clientEntryMonitorRunTimeout : Int := 300

def clientEntryMonitorRunMaxPolicies : Nat := 500

def clientEntryMonitorRequestKeyMaxLen : Nat := 255

/-- `clientEntryMonitorRunPair` -/
structure RunPair where
  targetID : Int
  probeID : Int
  targetVersion : Int
  policyID : Int
  policyName : String
  targetName : String
  host : String
  port : Int
  probeName : String
deriving DecidableEq

inductive RunStatus
  | running | completed | timeout
deriving DecidableEq, Repr

/-- A row of `v2_client_entry_monitor_run`. -/
structure Run where
  id : Int
  requestKey : String
  policyIDs : List Int
  expectedPairs : List RunPair
  status : RunStatus
  expectedResults : Nat
  receivedResults : Nat
  startedAt : Int
  completedAt : Option Int
deriving DecidableEq

/-- A row of `v2_client_entry_monitor_run_result`. -/
structure RunResult where
  runID : Int
  policyID : Int
  policyName : String
  targetID : Int
  probeID : Int
  targetName : String
  host : String
  port : Int
  probeName : String
  success : Bool
  latencyMS : Option Int
  error : String
  resolvedIP : String
  reportedAt : Int
deriving DecidableEq

def RunPair.unit (p : RunPair) : Int × Int := (p.targetID, p.probeID)

def RunResult.unit (x : RunResult) : Int × Int := (x.targetID, x.probeID)

/-- `UNIQUE (run_id, target_id, probe_id)` -/
def RunResult.key (x : RunResult) : Int × Int × Int := (x.runID, x.unit)

abbrev RunTable := Table Run.id Run.id
abbrev ResultTable := Table RunResult.key RunResult.key

/-- A result that was taken in for a run while it was running. -/
structure Reported where
  runID : Int
  targetID : Int
  probeID : Int
  targetVersion : Int
deriving DecidableEq

inductive StartError
  | keyTooLong
  | tooManyPolicies
  | invalidPolicy
  | busy
  | notEnabled
  | noneEnabled
  | selection
  | conflict
  | failed
deriving DecidableEq, Repr

def normalizeClientEntryMonitorRunPolicyIDs (policyIDs : List Int) : Except StartError (List Int) :=
  if clientEntryMonitorRunMaxPolicies < policyIDs.length then .error .tooManyPolicies
  else if ∃ id ∈ policyIDs, id ≤ 0 then .error .invalidPolicy
  else .ok (policyIDs.dedup.mergeSort (· ≤ ·))

def enabledProbes (db : MonitorBase) : List Probe :=
  (db.probes.rows.filter (·.enabled = 1)).mergeSort (·.id ≤ ·.id)

/-- The targets of enabled monitors and rules, by `target.id`. -/
def watchedTargets (db : MonitorBase) : List (Target × Monitor × PolicyRow) :=
  (db.targets.rows.mergeSort (·.id ≤ ·.id)).filterMap fun t => (watching db t).map fun mp => (t, mp)

def loadEnabledClientEntryMonitorPolicyIDs (db : MonitorBase) : List Int :=
  if enabledProbes db = [] then []
  else ((watchedTargets db).map (·.2.1.policyID)).dedup.mergeSort (· ≤ ·)

def runPair (t : Target) (p : PolicyRow) (probe : Probe) : RunPair where
  targetID := t.id
  probeID := probe.id
  targetVersion := t.generation
  policyID := p.id
  policyName := p.name
  targetName := t.name
  host := t.host
  port := t.port
  probeName := probe.name

def runPairs (targets : List (Target × Monitor × PolicyRow)) (probes : List Probe) : List RunPair :=
  targets.flatMap fun t => probes.map fun probe => runPair t.1 t.2.2 probe

def policyPairs (db : MonitorBase) (policyIDs : List Int) : List RunPair :=
  runPairs ((watchedTargets db).filter (·.2.1.policyID ∈ policyIDs)) (enabledProbes db)

structure AIEntryProbeSelection where
  policyIDs : List Int
  targetIDs : List Int
  probeIDs : List Int
deriving DecidableEq

def validateAIProbeIDs (ids : List Int) : Bool :=
  ids.length ≤ 50 && ids.all (0 < ·) && ids.Nodup

/-- The clause is left out when there are no ids. -/
def selects (ids : List Int) (id : Int) : Bool := ids = [] || id ∈ ids

/-- `CaptureAIEntryProbeSelection`; `agrees` says that the fingerprint is the expected one. -/
def captureAIEntryProbeSelection (db : MonitorBase) (selection : AIEntryProbeSelection)
    (agrees : Bool) : Except StartError (List Int × List RunPair) :=
  if selection.policyIDs.length + selection.targetIDs.length = 0 ∨
      validateAIProbeIDs selection.policyIDs = false ∨
      validateAIProbeIDs selection.targetIDs = false ∨
      validateAIProbeIDs selection.probeIDs = false then .error .selection
  else
    let targets := ((watchedTargets db).filter fun t =>
      selects selection.policyIDs t.2.2.id && selects selection.targetIDs t.1.id).take 51
    if targets = [] ∨ 50 < targets.length then .error .selection
    else if (∃ id ∈ selection.targetIDs, ∀ t ∈ targets, t.1.id ≠ id) ∨
        ∃ id ∈ selection.policyIDs, ∀ t ∈ targets, t.2.2.id ≠ id then .error .conflict
    else
      let probes := ((enabledProbes db).filter fun probe =>
        selects selection.probeIDs probe.id).take 51
      if probes = [] ∨ 50 < probes.length then .error .selection
      else if ∃ id ∈ selection.probeIDs, ∀ probe ∈ probes, probe.id ≠ id then .error .conflict
      else if agrees = false then .error .conflict
      else .ok (((targets.map (·.2.2.id)).dedup).mergeSort (· ≤ ·), runPairs targets probes)

/-- What a start does next, once it holds its advisory lock. -/
inductive StartPhase
  /-- the lookup of the request key -/
  | lookup
  /-- the `UPDATE` of stale runs -/
  | expire
  /-- the lookup of a running one -/
  | active
  /-- `loadEnabledClientEntryMonitorPolicyIDs`, or `CaptureAIEntryProbeSelection` -/
  | available
  /-- the snapshot of the pairs -/
  | tasks (policyIDs : List Int)
  /-- the `INSERT` -/
  | insert (policyIDs : List Int) (pairs : List RunPair)
  | commit (run : Run)

/-- A start; `expired` are the runs it has set to timeout, whose rows it has locked. -/
structure Starting where
  requestKey : String
  policyIDs : List Int
  selection : Option AIEntryProbeSelection
  now : Int
  expired : List Int
  phase : StartPhase

/-- What a report does next, once it holds the advisory lock of the events. -/
inductive TakePhase
  /-- the snapshot of the target of the next result -/
  | next
  /-- `validateClientEntryMonitorRunResult` -/
  | validate (r : DNSProbeResult) (runID : Int) (s : Snapshot)
  /-- the `INSERT` into the inbox; `live` says that the run is running, `valid` that the
  result counts for it -/
  | deduplicate (r : DNSProbeResult) (runID : Int) (s : Snapshot) (live valid : Bool)
  /-- the `INSERT` into the results of the run -/
  | store (r : DNSProbeResult) (runID : Int) (s : Snapshot) (live valid : Bool)
  /-- the counts of the runs that were touched -/
  | count (left : List Int) (updated : List (Int × Nat))
  | commit (updated : List (Int × Nat))

/-- A report; `held` are the runs whose rows it has locked, and `inbox`, `results` and
`reported` what it adds. -/
structure Taking where
  probeID : Int
  now : Int
  rest : List (DNSProbeResult × Int)
  seen : List String
  inbox : List (Int × String)
  results : List RunResult
  held : List Int
  touched : List Int
  reported : List Reported
  summary : ReportSummary
  phase : TakePhase

/-- `reported` says which results were taken in for a run that was running, `answers` what the
starts returned. -/
structure World where
  db : MonitorBase
  runs : RunTable
  results : ResultTable
  nextRunID : Int
  starting : Option Starting
  taking : Option Taking
  answers : List (Except StartError Int)
  reported : List Reported

def World.initial (db : MonitorBase) : World := ⟨db, .empty, .empty, 1, none, none, [], []⟩

def World.startHolds (w : World) (id : Int) : Bool := w.starting.any (id ∈ ·.expired)

def World.takeHolds (w : World) (id : Int) : Bool := w.taking.any (id ∈ ·.held)

/-- `status = 'running' AND started_at < $2` -/
def Run.stale (now : Int) (r : Run) : Bool :=
  r.status = .running && r.startedAt < now - clientEntryMonitorRunTimeout

def Run.expire (now : Int) (r : Run) : Run :=
  { r with status := .timeout, completedAt := some now }

def expireRuns (runs : RunTable) (ids : List Int) (now : Int) : RunTable :=
  runs.updateWhere (·.id ∈ ids) (Run.expire now) fun _ => ⟨rfl, rfl⟩

def World.ended (w : World) (answer : Except StartError Int) : World :=
  { w with starting := none, answers := w.answers ++ [answer] }

def World.setStart (w : World) (s : Starting) (phase : StartPhase) : World :=
  { w with starting := some { s with phase } }

/-- The run that is inserted: one without pairs is completed at once. -/
def Starting.run (s : Starting) (id : Int) (policyIDs : List Int) (pairs : List RunPair) :
    Run where
  id := id
  requestKey := s.requestKey
  policyIDs := policyIDs
  expectedPairs := pairs
  status := if pairs.length = 0 then .completed else .running
  expectedResults := pairs.length
  receivedResults := 0
  startedAt := s.now
  completedAt := if pairs.length = 0 then some s.now else none

def prepareStart (requestKey : String) (policyIDs : List Int) : Except StartError (String × List Int) :=
  let requestKey := trimSpace requestKey
  if clientEntryMonitorRequestKeyMaxLen < requestKey.utf8ByteSize then .error .keyTooLong
  else (normalizeClientEntryMonitorRunPolicyIDs policyIDs).map fun ids => (requestKey, ids)

def advanceStart (w : World) (s : Starting) (fails agrees : Bool) : World :=
  if fails then w.ended (.error .failed)
  else
    match s.phase with
    | .lookup =>
      if s.requestKey = "" then w.setStart s .expire
      else
        match w.runs.rows.find? (·.requestKey = s.requestKey) with
        | some run => if w.takeHolds run.id then w else w.ended (.ok run.id)
        | none => w.setStart s .expire
    | .expire =>
      let stale := (w.runs.rows.filter (Run.stale s.now)).map Run.id
      if ∃ id ∈ stale, w.takeHolds id = true then w
      else { w with starting := some { s with expired := stale, phase := .active } }
    | .active =>
      if ∃ r ∈ w.runs, r.status = .running ∧ r.id ∉ s.expired then
        if ∃ r ∈ w.runs, r.status = .running ∧ r.id ∉ s.expired ∧ w.takeHolds r.id = true then w
        else w.ended (.error .busy)
      else w.setStart s .available
    | .available =>
      match s.selection with
      | some selection =>
        match captureAIEntryProbeSelection w.db selection agrees with
        | .error e => w.ended (.error e)
        | .ok (policyIDs, pairs) => w.setStart s (.insert policyIDs pairs)
      | none =>
        let available := loadEnabledClientEntryMonitorPolicyIDs w.db
        if s.policyIDs = [] then
          if available = [] then w.ended (.error .noneEnabled) else w.setStart s (.tasks available)
        else if ∃ id ∈ s.policyIDs, id ∉ available then w.ended (.error .notEnabled)
        else w.setStart s (.tasks s.policyIDs)
    | .tasks policyIDs => w.setStart s (.insert policyIDs (policyPairs w.db policyIDs))
    | .insert policyIDs pairs =>
      { w.setStart s (.commit (s.run w.nextRunID policyIDs pairs)) with nextRunID := w.nextRunID + 1 }
    | .commit run =>
      match (expireRuns w.runs s.expired s.now).insert? run with
      | none => w.ended (.error .failed)
      | some runs => { w.ended (.ok run.id) with runs }

def World.setTake (w : World) (t : Taking) : World := { w with taking := some t }

def Taking.skip (t : Taking) : Taking :=
  { t with
    summary := { t.summary with skipped := t.summary.skipped + 1 }
    phase := .next }

def Taking.duplicate (t : Taking) : Taking :=
  { t with
    summary := { t.summary with duplicates := t.summary.duplicates + 1 }
    phase := .next }

/-- `pair.TargetID == targetID && pair.ProbeID == probeID && pair.TargetVersion == targetVersion` -/
def Run.expects (run : Run) (targetID probeID targetVersion : Int) : Bool :=
  run.expectedPairs.any fun p =>
    p.targetID = targetID && p.probeID = probeID && p.targetVersion = targetVersion

/-- `decodeClientEntryMonitorRunPairs` fails on such a pair. -/
def RunPair.invalid (p : RunPair) : Bool :=
  p.targetID ≤ 0 || p.probeID ≤ 0 || p.targetVersion ≤ 0

/-- `validateClientEntryMonitorRunResult`, once the row is not locked by another: whether the
run is running, and whether the result counts for it. -/
def validateRun (run : Run) (targetID probeID targetVersion : Int) : Option (Bool × Bool) :=
  if run.status ≠ .running then some (false, false)
  else if run.expectedPairs.any RunPair.invalid then none
  else some (true, run.expects targetID probeID targetVersion)

def runResult (runID probeID now : Int) (s : Snapshot) (r : DNSProbeResult) : RunResult where
  runID := runID
  policyID := s.policy.id
  policyName := s.policy.name
  targetID := s.target.id
  probeID := probeID
  targetName := s.target.name
  host := s.target.host
  port := s.target.port
  probeName := s.probe.name
  success := r.success = some true
  latencyMS := if r.success = some true then r.latencyMS else none
  error := if r.success = some true then "" else r.error
  resolvedIP := r.resolvedIP
  reportedAt := now

def Taking.accept (t : Taking) (results : ResultTable) (r : DNSProbeResult) (runID : Int)
    (s : Snapshot) (live valid : Bool) : Taking :=
  let x := runResult runID t.probeID t.now s r
  { t with
    results :=
      if valid = true ∧ ∀ y ∈ results.rows ++ t.results, y.key ≠ x.key then t.results ++ [x]
      else t.results
    touched := if valid then t.touched.insert runID else t.touched
    reported :=
      if live then t.reported ++ [⟨runID, s.target.id, t.probeID, r.targetVersion⟩]
      else t.reported
    summary := { t.summary with accepted := t.summary.accepted + 1 }
    phase := .next }

def countResults (results : List RunResult) (runID : Int) : Nat :=
  results.countP (·.runID = runID)

/-- `UPDATE … SET received_results, status, completed_at` -/
def Run.progress (received : Nat) (now : Int) (r : Run) : Run :=
  { r with
    receivedResults := received
    status := if r.expectedResults ≤ received then .completed else .running
    completedAt := if r.expectedResults ≤ received then some now else none }

def progressRuns (runs : RunTable) (updated : List (Int × Nat)) (now : Int) : RunTable :=
  runs.updateWhere (fun r => (updated.lookup r.id).isSome)
    (fun r => r.progress ((updated.lookup r.id).getD 0) now) fun _ => ⟨rfl, rfl⟩

def advanceTake (w : World) (t : Taking) (fails : Bool) : World :=
  if fails then { w with taking := none }
  else
    match t.phase with
    | .next =>
      match t.rest with
      | [] => w.setTake { t with phase := .count t.touched [] }
      | (r, runID) :: rest =>
        let t := { t with rest }
        if r.resultID ∈ t.seen then w.setTake t.duplicate
        else
          let t := { t with seen := r.resultID :: t.seen }
          match (decodeClientEntryProbeTargetID r.targetID).bind
              (loadClientEntryProbeTargetSnapshot w.db t.probeID) with
          | none => w.setTake t.skip
          | some s =>
            if r.targetVersion ≤ 0 ∨ r.targetVersion ≠ s.target.generation then w.setTake t.skip
            else w.setTake { t with phase := .validate r runID s }
    | .validate r runID s =>
      if runID ≤ 0 then w.setTake { t with phase := .deduplicate r runID s false false }
      else
        match w.runs.find? runID with
        | none => w.setTake { t with phase := .deduplicate r runID s false false }
        | some run =>
          if w.startHolds runID then w
          else
            match validateRun run s.target.id t.probeID s.target.generation with
            | none => { w with taking := none }
            | some (live, valid) =>
              w.setTake { t with
                held := runID :: t.held
                phase := .deduplicate r runID s live valid }
    | .deduplicate r runID s live valid =>
      if (t.probeID, r.resultID) ∈ w.db.inbox ++ t.inbox then w.setTake t.duplicate
      else
        w.setTake { t with
          inbox := t.inbox ++ [(t.probeID, r.resultID)]
          phase := .store r runID s live valid }
    | .store r runID s live valid => w.setTake (t.accept w.results r runID s live valid)
    | .count left updated =>
      match left with
      | [] => w.setTake { t with phase := .commit updated }
      | id :: left =>
        let received := countResults (w.results.rows ++ t.results) id
        w.setTake { t with phase := .count left ((id, received) :: updated) }
    | .commit updated =>
      match w.results.insertAll? t.results with
      | none => { w with taking := none }
      | some results =>
        { w with
          db := { w.db with inbox := w.db.inbox ++ t.inbox }
          runs := progressRuns w.runs updated t.now
          results
          taking := none
          reported := w.reported ++ t.reported }

/-- `configure` is what everything else does to the targets, the probes, their rules and the
inbox, and `expire` the `UPDATE` of the worker. `clear` deletes runs of history. The
advisory locks let one start and one report at a time through. -/
inductive Act
  | configure (db : MonitorBase)
  | start (requestKey : String) (policyIDs : List Int) (selection : Option AIEntryProbeSelection)
      (now : Int)
  | advanceStart (fails agrees : Bool)
  | report (probeID : Int) (results : List (DNSProbeResult × Int)) (now : Int)
  | advanceTake (fails : Bool)
  | expire (now : Int)
  | clear (ids : List Int)

def beginTake (probeID : Int) (results : List (DNSProbeResult × Int)) (now : Int) : Taking where
  probeID := probeID
  now := now
  rest := results
  seen := []
  inbox := []
  results := []
  held := []
  touched := []
  reported := []
  summary := ⟨0, 0, 0⟩
  phase := .next

/-- A run of history: `status <> 'running'` -/
def Run.cleared (ids : List Int) (r : Run) : Bool := r.status ≠ .running && r.id ∈ ids

def step (w : World) : Act → World
  | .configure db => { w with db }
  | .start requestKey policyIDs selection now =>
    if w.starting.isSome then w
    else
      match prepareStart requestKey policyIDs with
      | .error e => { w with answers := w.answers ++ [.error e] }
      | .ok (requestKey, ids) =>
        { w with starting := some ⟨requestKey, ids, selection, now, [], .lookup⟩ }
  | .advanceStart fails agrees =>
    match w.starting with
    | none => w
    | some s => Runs.advanceStart w s fails agrees
  | .report probeID results now =>
    if w.taking.isSome ∨ results = [] then w
    else
      match admitReport w.db probeID now with
      | .error _ => w
      | .ok () => { w with taking := some (beginTake probeID results now) }
  | .advanceTake fails =>
    match w.taking with
    | none => w
    | some t => Runs.advanceTake w t fails
  | .expire now =>
    let stale := (w.runs.rows.filter (Run.stale now)).map Run.id
    if ∃ id ∈ stale, w.takeHolds id = true ∨ w.startHolds id = true then w
    else { w with runs := expireRuns w.runs stale now }
  | .clear ids =>
    if ∃ r ∈ w.runs, r.cleared ids = true ∧ w.takeHolds r.id = true then w
    else
      { w with
        runs := w.runs.deleteWhere (Run.cleared ids)
        results := w.results.deleteWhere fun x =>
          (w.runs.find? x.runID).any (Run.cleared ids) }

end ForestPanel.EntryMonitor.Runs
