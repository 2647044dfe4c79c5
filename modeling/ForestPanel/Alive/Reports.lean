import Mathlib.Algebra.GroupWithZero.Nat
import Mathlib.Data.List.Dedup
import Mathlib.Logic.Function.Basic
import ForestPanel.ClientEntry.Conditions
import ForestPanel.Lib.Decimal
import ForestPanel.Lib.Transition

/-!
# The devices a node reports

`ReportAlive`: for every user of a report, the stored state of the user is loaded, the
entry of the node replaced, stale entries are dropped and the whole state is stored
again. A load and a store are two statements, and calls of several nodes interleave
between them. The reports that were stored are kept beside the state, newest first.
-/
namespace ForestPanel.Alive

open ClientEntry

/-- The node types that `LookupServer` finds a table for. -/
def nodeServerTables : List String :=
  ["shadowsocks", "vmess", "trojan", "tuic", "hysteria", "vless", "anytls", "v2node"]

def normalizeNodeType (lib : StandardLibrary) (nodeType : String) : String :=
  let name := lib.lower (trimSpace nodeType)
  if name = "v2ray" then "vmess" else if name = "hysteria2" then "hysteria" else name

structure Node where
  nodeType : String
  nodeID : Int
deriving DecidableEq

/-- `nodeKey` -/
def Node.key (node : Node) : String := node.nodeType ++ String.ofList (Decimal.format node.nodeID)

structure AliveEntry where
  aliveips : List String
  lastupdateAt : Int
deriving DecidableEq

/-- The stored object: an entry under the key of each node, and `alive_ip`. -/
structure AliveState where
  nodes : List (String × AliveEntry)
  aliveIP : Int
deriving DecidableEq

/-- A row of `v2_runtime_kv`. -/
structure Row where
  value : AliveState
  expireAt : Int
  updatedAt : Int
deriving DecidableEq

/-- `stringList` of a payload, and `stringSliceFromAny` of a decoded list. -/
def stringList (items : List String) : List String := (items.map trimSpace).filter (· ≠ "")

/-- The text up to the first underscore. -/
def cutSuffix (item : String) : String :=
  String.ofList ((trimSpace item).toList.takeWhile (· ≠ '_'))

def countIPs (deviceLimitMode : Int) (lists : List (List String)) : Int :=
  if deviceLimitMode = 1 then ((lists.flatten.map cutSuffix).filter (· ≠ "")).dedup.length
  else (lists.map List.length).sum

/-- The state to store: the entry of the node set, stale entries deleted, the rest counted. -/
def reportState (state : AliveState) (key : String) (ips : List String) (now deviceLimitMode : Int) :
    AliveState :=
  let nodes := (key, ⟨ips, now⟩) :: state.nodes.filter (·.1 ≠ key)
  let kept := nodes.filter fun node => ¬now - node.2.lastupdateAt > 100
  -- the entry just set is a list of texts, the others were decoded
  let lists := kept.map fun node =>
    if node.1 = key then node.2.aliveips else stringList node.2.aliveips
  { nodes := kept, aliveIP := countIPs deviceLimitMode lists }

structure Report where
  user : Int
  node : Node
  ips : List String
  reportedAt : Int
  storedAt : Int
  deviceLimitMode : Int
deriving DecidableEq

def Report.entry (r : Report) : AliveEntry := ⟨r.ips, r.reportedAt⟩

/-- Where a call of `ReportAlive` stands, and the users it has not come to. -/
inductive Phase where
  | reading (todo : List (Int × List String))
  /-- The state of a user is loaded, when `seen` reports had been stored. -/
  | loaded (user : Int) (ips : List String) (state : AliveState) (seen : Nat)
      (todo : List (Int × List String))
  | returned
  | failed
deriving DecidableEq

structure Call where
  node : Node
  now : Int
  deviceLimitMode : Int
  users : List (Int × List String)
  phase : Phase
deriving DecidableEq

structure World where
  clock : Int
  kv : Int → Option Row
  calls : List Call
  reports : List Report

def emptyWorld (clock : Int) : World := ⟨clock, fun _ => none, [], []⟩

inductive Outcome where
  | stored
  /-- The row is written, and the answer is an error. -/
  | unheard
  | refused
deriving DecidableEq

inductive Act where
  | tick (seconds : Nat)
  /-- A node reports, while the configuration has this device limit mode. -/
  | report (nodeType : String) (nodeID : Int) (users : List (Int × List String))
      (deviceLimitMode : Int)
  /-- The call goes on with the user at index `i`; the query may fail. -/
  | load (n i : Nat) (fails : Bool)
  | store (n : Nat) (outcome : Outcome)
  | finish (n : Nat)

namespace World

/-- The handler has found the server, and `ReportAlive` begins. -/
def report (lib : StandardLibrary) (w : World) (nodeType : String) (nodeID : Int)
    (users : List (Int × List String)) (deviceLimitMode : Int) : World :=
  let nodeType := normalizeNodeType lib nodeType
  if nodeType ∈ nodeServerTables ∧ 0 < nodeID then
    let users := users.map fun user => (user.1, stringList user.2)
    { w with
      calls := w.calls ++ [⟨⟨nodeType, nodeID⟩, w.clock, deviceLimitMode, users, .reading users⟩] }
  else w

def loadAliveState (w : World) (user : Int) : AliveState :=
  match w.kv user with
  | none => ⟨[], 0⟩
  | some row => if 0 < row.expireAt ∧ row.expireAt ≤ w.clock then ⟨[], 0⟩ else row.value

def setPhase (w : World) (n : Nat) (c : Call) (phase : Phase) : World :=
  { w with calls := w.calls.set n { c with phase } }

def load (w : World) (n i : Nat) (fails : Bool) : World :=
  match w.calls[n]? with
  | some c =>
    match c.phase with
    | .reading todo =>
      match todo[i]? with
      | some (user, ips) =>
        let todo := todo.eraseIdx i
        if user ≤ 0 then w.setPhase n c (.reading todo)
        else if fails then w.setPhase n c .failed
        else w.setPhase n c (.loaded user ips (w.loadAliveState user) w.reports.length todo)
      | none => w
    | _ => w
  | none => w

/-- `setRuntimeKV(aliveUserKey(userID), …, 120)` has written its row. -/
def write (w : World) (c : Call) (user : Int) (ips : List String) (state : AliveState) : World :=
  let value := reportState state c.node.key ips c.now c.deviceLimitMode
  { w with
    kv := Function.update w.kv user (some ⟨value, w.clock + 120, w.clock⟩)
    reports := ⟨user, c.node, ips, c.now, w.clock, c.deviceLimitMode⟩ :: w.reports }

def store (w : World) (n : Nat) (outcome : Outcome) : World :=
  match w.calls[n]? with
  | some c =>
    match c.phase with
    | .loaded user ips state _ todo =>
      match outcome with
      | .stored => (w.write c user ips state).setPhase n c (.reading todo)
      | .unheard => (w.write c user ips state).setPhase n c .failed
      | .refused => w.setPhase n c .failed
    | _ => w
  | none => w

def finish (w : World) (n : Nat) : World :=
  match w.calls[n]? with
  | some c =>
    match c.phase with
    | .reading [] => w.setPhase n c .returned
    | _ => w
  | none => w

end World

def step (lib : StandardLibrary) (w : World) : Act → World
  | .tick seconds => { w with clock := w.clock + seconds }
  | .report nodeType nodeID users deviceLimitMode =>
    w.report lib nodeType nodeID users deviceLimitMode
  | .load n i fails => w.load n i fails
  | .store n outcome => w.store n outcome
  | .finish n => w.finish n

end ForestPanel.Alive
