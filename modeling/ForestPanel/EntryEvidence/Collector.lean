import ForestPanel.Lib.Decimal
import ForestPanel.Lib.Outcome
import ForestPanel.Store.Text

/-!
# Delivery evidence

A `Collector` notes which nodes a subscription response was made of, and `Record` writes
the request and its nodes down. Both clean the nodes, and both lower the coverage where
something is missing.
-/
namespace ForestPanel

namespace EntryEvidence

structure Node where
  serverType : String
  serverID : Int
  policyID : Int
  groupID : Int
  ruleRevision : String
  sourceHost : String
  deliveredHost : String
  port : String
  resolved : Bool
  providerID : Int
  collectionID : Int
  source : String
deriving Repr, DecidableEq

structure Request where
  id : String
  userID : Int
  emailAtEvent : String
  ua : String
  requestedAt : Int
  completedAt : Int
  transport : String
  status : Int
  responseComplete : Bool
  coverage : String
  coverageReason : String
  nodeCount : Nat
  bytesWritten : Int
  writeError : String
deriving Repr, DecidableEq

def bounded (value : String) (limit : Nat) : String :=
  String.ofList ((trimSpace value).toList.take limit)

def safeHost (host : String) : String :=
  let host := trimSpace host
  if isIPOrHostname host then bounded host 255 else ""

/-- `^[0-9,\-]{1,64}$` -/
def safePort (port : String) : Bool :=
  1 ≤ port.toList.length && port.toList.length ≤ 64 &&
    port.toList.all fun c => c.isDigit || c = ',' || c = '-'

/-- `^[a-f0-9]{64}$` -/
def safeRevision (revision : String) : Bool :=
  revision.toList.length = 64 &&
    revision.toList.all fun c => c.isDigit || ('a' ≤ c && c ≤ 'f')

def serverTypes : List String :=
  ["shadowsocks", "vmess", "vless", "trojan", "tuic", "hysteria", "hysteria2", "anytls", "v2node",
    "juicity", "mieru", "socks", "http"]

def sources : List String :=
  ["default", "policy", "split", "support_override", "provider", "extra", "unavailable"]

def safeNode (n : Node) : Node :=
  let sourceHost := safeHost n.sourceHost
  let deliveredHost := safeHost n.deliveredHost
  { n with
    serverType := if n.serverType ∈ serverTypes then n.serverType else "unknown"
    sourceHost := sourceHost
    deliveredHost := deliveredHost
    port := if safePort n.port then n.port else ""
    ruleRevision := if safeRevision n.ruleRevision then n.ruleRevision else ""
    source := if n.source ∈ sources then n.source else "unavailable"
    -- the canonical form of an IPv6 literal is no DNS resolution
    resolved := n.resolved && Address.parseAddr deliveredHost.toList &&
      !Address.parseAddr sourceHost.toList && sourceHost ≠ "" && sourceHost ≠ deliveredHost }

def validDeliveryNode (n : Node) : Bool :=
  n.deliveredHost ≠ "" && n.port ≠ "" && n.serverType ≠ "unknown" && n.source ≠ "unavailable"

structure Collector where
  request : Request
  /-- A map; the newest entry of a key comes first. -/
  observed : List (String × Node)
  emitted : List Node
deriving Repr, DecidableEq

def newCollector (id transport ua : String) (now : Int) : Collector :=
  ⟨⟨id, 0, "", bounded ua 1024, now, 0, transport, 0, false, "unavailable", "not_generated", 0, 0,
    ""⟩, [], []⟩

def nodeKey (kind : String) (id : Int) : String :=
  kind ++ ":" ++ String.ofList (Decimal.format id)

namespace Collector

def setUser (c : Collector) (id : Int) (email : String) : Collector :=
  let c := { c with request := { c.request with userID := id } }
  if email = "" then c
  else { c with request := { c.request with emailAtEvent := bounded email 254 } }

def observe (c : Collector) (node : Node) : Collector :=
  let node := safeNode node
  { c with observed := (nodeKey node.serverType node.serverID, node) :: c.observed }

def override (c : Collector) (node : Node) : Collector := c.observe node

def partially (c : Collector) (reason : String) : Collector :=
  { c with request := { c.request with coverage := "partial", coverageReason := reason } }

def emit (c : Collector) (serverType : String) (id : Int) (host port : String) : Collector :=
  let found := c.observed.lookup (nodeKey serverType id)
  let n := found.getD ⟨serverType, id, 0, 0, "", "", "", "", false, 0, 0, "unavailable"⟩
  let c := if found = none then c.partially "runtime_provenance_missing" else c
  let n := safeNode { n with deliveredHost := host, port := port }
  let c := if n.deliveredHost = "" ∨ n.port = "" ∨ n.serverType = "unknown" then
      c.partially "endpoint_metadata_incomplete"
    else c
  if 2000 ≤ c.emitted.length then c.partially "node_limit"
  else { c with emitted := c.emitted ++ [n] }

def coverage (c : Collector) (coverage reason : String) : Collector :=
  if c.request.coverage = "partial" ∧ coverage = "complete" then c
  else { c with request := { c.request with coverage := coverage, coverageReason := reason } }

def finish (c : Collector) (now status bytes : Int) (writeError : String) : Request × List Node :=
  let fine := 200 ≤ status ∧ status < 300 ∧ writeError = ""
  let r := { c.request with
    completedAt := now
    status := status
    bytesWritten := bytes
    writeError := writeError
    responseComplete :=
      fine ∧ (c.request.coverage = "complete" ∨ c.request.coverage = "partial") }
  if status = 304 then
    ({ r with
      coverage := "not_emitted"
      coverageReason := "not_modified"
      responseComplete := false
      nodeCount := 0 }, [])
  else if fine then ({ r with nodeCount := c.emitted.length }, c.emitted)
  else
    ({ r with
      responseComplete := false
      coverageReason := if r.coverage = "unavailable" then "request_failed" else r.coverageReason
      nodeCount := c.emitted.length }, c.emitted)

end Collector

inductive Call
  | setUser (id : Int) (email : String)
  | observe (node : Node)
  | override (node : Node)
  | emit (serverType : String) (id : Int) (host port : String)
  | coverage (coverage reason : String)
deriving Repr, DecidableEq

def Collector.call (c : Collector) : Call → Collector
  | .setUser id email => c.setUser id email
  | .observe node => c.observe node
  | .override node => c.override node
  | .emit serverType id host port => c.emit serverType id host port
  | .coverage coverage reason => c.coverage coverage reason

/-- A row of `v2_entry_delivery_node`. -/
structure NodeRow where
  requestID : String
  ordinal : Nat
  node : Node
deriving Repr, DecidableEq

structure Evidence where
  requests : List Request
  nodes : List NodeRow
deriving Repr, DecidableEq

inductive RecordError
  | validation
  /-- The primary key of the requests. -/
  | duplicate
deriving Repr, DecidableEq

def transports : List String :=
  ["subscription", "server_json", "app_clash", "forest_runtime", "forest_provider"]

def writeErrors : List String :=
  ["", "write_failed", "short_write", "flush_failed", "body_not_written", "handler_panicked"]

/-- The request as `Record` bounds it, before it looks at the nodes. -/
def normalized (request : Request) : Request :=
  let coverage := if request.coverage ∈ ["complete", "partial", "not_emitted", "unavailable"] then
    request.coverage else "unavailable"
  let writeError := if request.writeError ∈ writeErrors then request.writeError else "write_failed"
  { request with
    emailAtEvent := bounded request.emailAtEvent 254
    ua := bounded request.ua 1024
    transport := if request.transport ∈ transports then request.transport else "unknown"
    coverage := coverage
    coverageReason := bounded request.coverageReason 200
    writeError := writeError
    responseComplete := request.responseComplete && 200 ≤ request.status && request.status < 300 &&
      writeError = "" && (coverage = "complete" || coverage = "partial") }

def Request.covered (request : Request) (coverage reason : String) : Request :=
  { request with
    coverage := coverage
    coverageReason := reason }

/-- The clean nodes and their number; a node that says too little lowers the coverage. -/
def counted (request : Request) (nodes : List Node) : Request × List Node :=
  let nodes := nodes.map safeNode
  let request := if request.coverage = "complete" ∧ ¬nodes.all validDeliveryNode then
      request.covered "partial" "endpoint_metadata_incomplete"
    else request
  ({ request with nodeCount := nodes.length }, nodes)

def toStore (request : Request) (nodes : List Node) : Request × List Node :=
  let request := normalized request
  if request.status = 304 then counted (request.covered "not_emitted" "not_modified") []
  else if 2000 < nodes.length then
    counted (request.covered "partial" "node_limit") (nodes.take 2000)
  else counted request nodes

open Outcome

def record (db : Evidence) (request : Request) (nodes : List Node) :
    Except RecordError Evidence := do
  ensure (request.id ≠ "" ∧ 0 < request.userID ∧ 0 < request.requestedAt ∧
    request.requestedAt ≤ request.completedAt) .validation
  ensure (request.id.utf8ByteSize ≤ 128 ∧ 100 ≤ request.status ∧ request.status ≤ 599 ∧
    0 ≤ request.bytesWritten) .validation
  let stored := toStore request nodes
  ensure (∀ r ∈ db.requests, r.id ≠ stored.1.id) .duplicate
  .ok ⟨db.requests ++ [stored.1],
    db.nodes ++ stored.2.mapIdx fun i node => ⟨stored.1.id, i, node⟩⟩

/-- `Cleanup` deletes old requests, and their nodes with them. -/
def cleanup (db : Evidence) (old : List String) : Evidence :=
  ⟨db.requests.filter fun r => r.id ∉ old, db.nodes.filter fun row => row.requestID ∉ old⟩

inductive Write
  | record (request : Request) (nodes : List Node)
  | cleanup (old : List String)
deriving Repr, DecidableEq

def Evidence.empty : Evidence := ⟨[], []⟩

/-- A `Record` that fails changes nothing. -/
def Evidence.write (db : Evidence) : Write → Evidence
  | .record request nodes => match EntryEvidence.record db request nodes with
    | .ok db' => db'
    | .error _ => db
  | .cleanup old => EntryEvidence.cleanup db old

def Evidence.nodesOf (db : Evidence) (id : String) : List NodeRow :=
  db.nodes.filter fun row => row.requestID = id

end EntryEvidence

end ForestPanel
