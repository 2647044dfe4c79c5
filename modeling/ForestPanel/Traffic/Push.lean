import ForestPanel.Alive.Reports
import ForestPanel.Lib.Double
import ForestPanel.Lib.Transition

/-!
# Traffic reports

`PushTraffic`: the rate of the node, two jobs in the queue, then two runtime key-value
writes, each of which can fail; and the job that adds a report to the users. The
database's reading of a rate text as a double is a parameter. What each accepted report
was answered, and which traffic jobs have run, is kept beside the state.
-/
namespace ForestPanel.Traffic

open ClientEntry Double
open Decimal (Fits)

structure TrafficUsage where
  u : Int
  d : Int
deriving DecidableEq

/-- The usages of a report, a map from user ids to signed 64-bit numbers. -/
structure Usages where
  entries : List (Int × TrafficUsage)
  nodup : (entries.map Prod.fst).Nodup
  fits : ∀ e ∈ entries, Fits e.2.u ∧ Fits e.2.d
deriving DecidableEq

structure TrafficPushRequest where
  nodeID : Int
  nodeType : String
  traffic : Usages

structure TrafficReport where
  serverID : Int
  serverType : String
  serverRate : Float64
  traffic : Usages
deriving DecidableEq

inductive Job where
  | trafficFetch (report : TrafficReport)
  | stat (report : TrafficReport)
deriving DecidableEq

structure User where
  u : Int
  d : Int
  t : Int
deriving DecidableEq

/-- What fails in a call: the query of the rate, an enqueue, a runtime key-value write. -/
structure Faults where
  rate : Bool
  traffic : Bool
  stat : Bool
  lastPushAt : Bool
  onlineUser : Bool
deriving DecidableEq

inductive PushError where
  | invalidTarget
  | unsupportedType
  | notExist
  | queryRate
  | enqueue
  | setRuntimeKV
deriving DecidableEq

inductive RuntimeKey where
  | lastPushAt (nodeType : String) (nodeID : Int)
  | onlineUser (nodeType : String) (nodeID : Int)
deriving DecidableEq

structure World where
  users : Int → Option User
  /-- The rate texts of the servers, by type and id. -/
  rates : String → Int → Option String
  runtime : RuntimeKey → Option Int
  /-- The accepted jobs that have not run. -/
  jobs : List Job
  /-- The reports whose call has returned nil. -/
  answered : List TrafficReport
  /-- The reports whose traffic job has run. -/
  ran : List TrafficReport

def loadNodeRate (castRate : String → Option Float64) (w : World) (nodeType : String) (nodeID : Int)
    (fails : Bool) : Except PushError Float64 :=
  if nodeType ∉ Alive.nodeServerTables then .error .unsupportedType
  else if fails then .error .queryRate
  else
    match w.rates nodeType nodeID with
    | none => .error .notExist
    | some text =>
      match castRate text with
      | none => .error .queryRate
      | some rate => .ok (if rate.nonpositive then .finite 1 else rate)

/-- `QueueTrafficReport`: the error leaves the job accepted before it. -/
def queueTrafficReport (w : World) (report : TrafficReport) (faults : Faults) :
    Except PushError Unit × World :=
  if report.serverID ≤ 0 ∨ report.serverType = "" ∨ report.traffic.entries = [] then (.ok (), w)
  else if faults.traffic then (.error .enqueue, w)
  else
    let w := { w with jobs := w.jobs ++ [.trafficFetch report] }
    if faults.stat then (.error .enqueue, w)
    else (.ok (), { w with jobs := w.jobs ++ [.stat report] })

def setRuntimeKV (w : World) (key : RuntimeKey) (value : Int) : World :=
  { w with runtime := Function.update w.runtime key (some value) }

def pushTraffic (lib : StandardLibrary) (castRate : String → Option Float64) (w : World)
    (req : TrafficPushRequest) (faults : Faults) (now : Int) : Except PushError Unit × World :=
  let nodeType := Alive.normalizeNodeType lib req.nodeType
  if req.nodeID ≤ 0 ∨ nodeType = "" then (.error .invalidTarget, w)
  else if req.traffic.entries = [] then (.ok (), w)
  else
    match loadNodeRate castRate w nodeType req.nodeID faults.rate with
    | .error e => (.error e, w)
    | .ok rate =>
      let report : TrafficReport := ⟨req.nodeID, nodeType, rate, req.traffic⟩
      match queueTrafficReport w report faults with
      | (.error e, w) => (.error e, w)
      | (.ok (), w) =>
        if faults.lastPushAt then (.error .setRuntimeKV, w)
        else
          let w := setRuntimeKV w (.lastPushAt nodeType req.nodeID) now
          if faults.onlineUser then (.error .setRuntimeKV, w)
          else
            let w := setRuntimeKV w (.onlineUser nodeType req.nodeID) req.traffic.entries.length
            (.ok (), { w with answered := w.answered ++ [report] })

def scaleTraffic (value : Int) (rate : Float64) : Int :=
  if value = 0 then 0
  else
    let rate := if rate.nonpositive then .finite 1 else rate
    ((Float64.ofInt value).mul rate).round.toInt64

/-- The rows of the statement: the users with an id and an amount. -/
def changes (report : TrafficReport) : List (Int × TrafficUsage) :=
  (report.traffic.entries.map fun entry =>
    (entry.1, ⟨scaleTraffic entry.2.u report.serverRate, scaleTraffic entry.2.d report.serverRate⟩)).filter
      fun change => ¬(change.1 ≤ 0 ∨ (change.2.u = 0 ∧ change.2.d = 0))

def maxParameters : Nat := 65535

def User.add (user : User) (usage : TrafficUsage) (now : Int) : User :=
  ⟨user.u + usage.u, user.d + usage.d, now⟩

/-- `applyTrafficFetch`: one statement updates all rows, or it fails and updates none. -/
def applyTrafficFetch (users : Int → Option User) (report : TrafficReport) (now : Int) :
    Int → Option User :=
  let changes := changes report
  if changes.length * 3 + 1 > maxParameters then users
  else if changes.all fun change => (users change.1).all fun user =>
      decide (Fits (user.u + change.2.u) ∧ Fits (user.d + change.2.d)) then
    fun id =>
      match changes.find? (·.1 = id) with
      | some change => (users id).map (·.add change.2 now)
      | none => users id
  else users

/-- A worker runs the first job. The statistics of a report leave the users alone. -/
def work (w : World) (now : Int) : World :=
  match w.jobs with
  | [] => w
  | .trafficFetch report :: rest =>
    { w with
      users := applyTrafficFetch w.users report now
      jobs := rest
      ran := w.ran ++ [report] }
  | .stat _ :: rest => { w with jobs := rest }

inductive Act where
  | push (req : TrafficPushRequest) (faults : Faults) (now : Int)
  | work (now : Int)

def step (lib : StandardLibrary) (castRate : String → Option Float64) (w : World) : Act → World
  | .push req faults now => (pushTraffic lib castRate w req faults now).2
  | .work now => work w now

end ForestPanel.Traffic
