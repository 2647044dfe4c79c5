import ForestPanel.Lib.First
import ForestPanel.Lib.Table

/-!
# Decisions of the DNS failover

`decideDNSFailover` looks at the probes of a group, at what they last found out about its
targets, and at the target its record points to. It says whether the record is to be moved,
and where. The snapshots are tables: a target, a probe, and a probe's state of a target are
there once.
-/
namespace ForestPanel.DNSFailover

open FirstMatch Relational

inductive Action
  | none | failover | failback
deriving DecidableEq, Repr

inductive Reason
  | allProbesOffline
  | cooldown
  | currentFailed
  | probeDisagreement
  | noHealthyTarget
  | currentHealthy
  | failureThresholdPending
  | noProbeData
  | higherPriorityRecovered
deriving DecidableEq, Repr

/-- `dnsFailoverDecision`; the target is 0 where nothing is moved. -/
structure Decision where
  action : Action
  targetID : Int
  reason : Reason
deriving DecidableEq, Repr

structure TargetSnapshot where
  id : Int
  sort : Int
  enabled : Bool
deriving DecidableEq, Repr

structure ProbeSnapshot where
  id : Int
  online : Bool
deriving DecidableEq, Repr

/-- What a probe found out about a target; only fresh states are handed over. -/
structure ProbeTargetSnapshot where
  probeID : Int
  targetID : Int
  successStreak : Int
  failureStreak : Int
deriving DecidableEq, Repr

def ProbeTargetSnapshot.key (s : ProbeTargetSnapshot) : Int × Int := (s.probeID, s.targetID)

abbrev TargetSnapshots := Table TargetSnapshot.id TargetSnapshot.id
abbrev ProbeSnapshots := Table ProbeSnapshot.id ProbeSnapshot.id
abbrev StateSnapshots := Table ProbeTargetSnapshot.key ProbeTargetSnapshot.key

/-- `dnsFailoverDecisionInput`; times are in nanoseconds, and `lastSwitchAt` is `none` where
`IsZero` holds of it. -/
structure DecisionInput where
  now : Int
  currentTargetID : Int
  autoFailback : Bool
  lastSwitchAt : Option Int
  cooldown : Int
  failureThreshold : Int
  successThreshold : Int
  singleProbeFailureThreshold : Int
  singleProbeSuccessThreshold : Int
  targets : TargetSnapshots
  probes : ProbeSnapshots
  states : StateSnapshots

namespace DecisionInput

variable (input : DecisionInput)

def anyOnline : Bool := input.probes.rows.any (·.online)

def coolingDown : Bool :=
  input.lastSwitchAt.any fun last => 0 < input.cooldown && input.now < last + input.cooldown

/-- `dnsFailoverDecisionAvailableProbeIDs` -/
def availableProbeIDs : List Int :=
  (input.probes.rows.filter fun p =>
    p.online && input.states.rows.any fun s =>
      s.targetID = input.currentTargetID && s.probeID = p.id).map (·.id)

/-- A single probe has thresholds of its own. -/
def failureLimit : Int :=
  if input.availableProbeIDs.length = 1 then input.singleProbeFailureThreshold
  else input.failureThreshold

def successLimit : Int :=
  if input.availableProbeIDs.length = 1 then input.singleProbeSuccessThreshold
  else input.successThreshold

/-- `allMeet`, by the streak that is compared. -/
def allMeet (streak : ProbeTargetSnapshot → Int) (targetID threshold : Int) : Bool :=
  input.availableProbeIDs.all fun probeID =>
    (input.states.find? (probeID, targetID)).any fun s => threshold ≤ streak s

def anyMeet (targetID threshold : Int) : Bool :=
  input.availableProbeIDs.any fun probeID =>
    (input.states.find? (probeID, targetID)).any fun s => threshold ≤ s.failureStreak

def sortedTargets : List TargetSnapshot :=
  input.targets.rows.insertionSort (ByKeys TargetSnapshot.sort TargetSnapshot.id)

def currentFailed : Bool :=
  input.allMeet (·.failureStreak) input.currentTargetID input.failureLimit

def healthy (t : TargetSnapshot) : Bool :=
  t.enabled && input.allMeet (·.successStreak) t.id input.successLimit

/-- The loop over the targets once the current one has failed. -/
def failoverTarget : Option TargetSnapshot :=
  input.sortedTargets.find? fun t => t.id ≠ input.currentTargetID && input.healthy t

/-- The loop over the targets that come before the current one. -/
def failbackTarget : Option TargetSnapshot :=
  match input.sortedTargets.find? (·.id = input.currentTargetID) with
  | none => none
  | some current => (input.sortedTargets.takeWhile (·.sort < current.sort)).find? input.healthy

/-- Why nothing is moved while the current target has not failed. -/
def holdReason : Reason :=
  let current := input.availableProbeIDs.filterMap fun probeID =>
    input.states.find? (probeID, input.currentTargetID)
  if 1 < input.availableProbeIDs.length ∧
      input.anyMeet input.currentTargetID input.failureLimit = true then .probeDisagreement
  else if current = [] then .noProbeData
  else if ∃ s ∈ current, 0 < s.failureStreak then .failureThresholdPending
  else .currentHealthy

end DecisionInput

def decideDNSFailover (input : DecisionInput) : Decision :=
  if input.anyOnline = false then ⟨.none, 0, .allProbesOffline⟩
  else if input.coolingDown then ⟨.none, 0, .cooldown⟩
  else if input.availableProbeIDs = [] then ⟨.none, 0, .noProbeData⟩
  else if input.currentFailed then
    match input.failoverTarget with
    | some t => ⟨.failover, t.id, .currentFailed⟩
    | none => ⟨.none, 0, .noHealthyTarget⟩
  else
    match if input.autoFailback then input.failbackTarget else none with
    | some t => ⟨.failback, t.id, .higherPriorityRecovered⟩
    | none => ⟨.none, 0, input.holdReason⟩

end ForestPanel.DNSFailover
