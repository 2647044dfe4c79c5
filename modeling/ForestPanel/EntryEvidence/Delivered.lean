import ForestPanel.EntryEvidence.Collector
import ForestPanel.Lib.Transition
import Mathlib.Data.List.Forall2

/-!
# Evidence never overstates a delivery

Coverage that a call has lowered stays lowered, so that a collector with full coverage has
a clean node for every `Emit`. `Record` looks at the nodes once more, and what it inserts
is counted exactly.
-/
namespace ForestPanel

namespace EntryEvidence

open Outcome Transition

variable {host : String} {c : Collector} {r : Request} {nodes : List Node} {db db' : Evidence}

private theorem safeHost_eq (valid : isIPOrHostname host = true) :
    safeHost host = trimSpace host := by
  have short := isIPOrHostname_length valid
  rw [safeHost, isIPOrHostname_trimSpace, if_pos valid, bounded, trimSpace_trimSpace,
    List.take_of_length_le (by omega), String.ofList_toList]

private theorem safeHost_not (invalid : ¬isIPOrHostname host = true) : safeHost host = "" := by
  rw [safeHost, isIPOrHostname_trimSpace, if_neg invalid]

theorem safeHost_valid (present : safeHost host ≠ "") : isIPOrHostname (safeHost host) = true := by
  by_cases valid : isIPOrHostname host = true
  · rw [safeHost_eq valid, isIPOrHostname_trimSpace]
    exact valid
  · exact absurd (safeHost_not valid) present

@[simp] theorem safeHost_safeHost (host : String) : safeHost (safeHost host) = safeHost host := by
  by_cases valid : isIPOrHostname host = true
  · have trimmed : isIPOrHostname (trimSpace host) = true := by
      rwa [isIPOrHostname_trimSpace]
    rw [safeHost_eq valid, safeHost_eq trimmed, trimSpace_trimSpace]
  · rw [safeHost_not valid]
    decide +kernel

theorem safeNode_serverType (n : Node) : (safeNode n).serverType =
    if n.serverType ∈ serverTypes then n.serverType else "unknown" := rfl

theorem safeNode_host (n : Node) : (safeNode n).deliveredHost = safeHost n.deliveredHost := by
  simp only [safeNode]

theorem safeNode_port (n : Node) : (safeNode n).port = if safePort n.port then n.port else "" := rfl

theorem safeNode_source (n : Node) : (safeNode n).source =
    if n.source ∈ sources then n.source else "unavailable" := rfl

/-- A node that says where a client was sent. -/
structure Node.Known (n : Node) : Prop where
  serverType : n.serverType ∈ serverTypes
  host : isIPOrHostname n.deliveredHost = true
  port : safePort n.port = true
  source : n.source ∈ sources ∧ n.source ≠ "unavailable"

theorem known_of_valid {n : Node} (valid : validDeliveryNode (safeNode n) = true) :
    (safeNode n).Known := by
  simp only [validDeliveryNode, Bool.and_eq_true, decide_eq_true_eq] at valid
  obtain ⟨⟨⟨host, port⟩, serverType⟩, source⟩ := valid
  constructor
  · rw [safeNode_serverType] at serverType ⊢
    split at serverType
    next listed => rwa [if_pos listed]
    next => exact absurd rfl serverType
  · rw [safeNode_host] at host ⊢
    exact safeHost_valid host
  · rw [safeNode_port] at port ⊢
    split at port
    next safe => rwa [if_pos safe]
    next => exact absurd rfl port
  · refine ⟨?_, source⟩
    rw [safeNode_source] at source ⊢
    split at source
    next listed => rwa [if_pos listed]
    next => exact absurd rfl source

private theorem safeNode_type (n : Node) :
    (safeNode n).serverType ∈ serverTypes ∨ (safeNode n).serverType = "unknown" := by
  rw [safeNode_serverType]
  split
  next listed => exact Or.inl listed
  next => exact Or.inr rfl

private theorem colon_notMem {kind : String} (named : kind ∈ serverTypes ∨ kind = "unknown") :
    ':' ∉ kind.toList := by
  have each : ∀ kind ∈ "unknown" :: serverTypes, ':' ∉ kind.toList := by decide +kernel
  apply each
  rcases named with listed | rfl
  · exact List.mem_cons_of_mem _ listed
  · exact List.mem_cons_self

private theorem nodeKey_injective {kind other : String} {id number : Int}
    (named : kind ∈ serverTypes ∨ kind = "unknown") (same : nodeKey kind id = nodeKey other number) :
    kind = other ∧ id = number := by
  have digits : ':' ∉ Decimal.format id := by
    intro member
    rcases Decimal.mem_format member with is | digit
    · cases is
    · cases digit
  have letters := congrArg String.toList same
  simp only [nodeKey, String.toList_append, String.toList_ofList, List.append_assoc] at letters
  obtain ⟨kinds, -, numbers⟩ :=
    (List.append_cons_inj_of_notMem (colon_notMem named) digits).mp letters
  exact ⟨String.toList_inj.mp kinds, Decimal.format_injective numbers⟩

structure Emission where
  serverType : String
  id : Int
  host : String
  port : String
deriving Repr, DecidableEq

def Call.emission : Call → Option Emission
  | .emit serverType id host port => some ⟨serverType, id, host, port⟩
  | _ => none

def emissions (calls : List Call) : List Emission := calls.filterMap Call.emission

/-- The coverage that a generator may report. -/
def Call.Ordinary : Call → Prop
  | .coverage level _ => level = "complete" ∨ level = "partial"
  | _ => True

structure Delivered (e : Emission) (n : Node) : Prop where
  serverType : n.serverType = e.serverType
  serverID : n.serverID = e.id
  host : n.deliveredHost = safeHost e.host
  port : n.port = e.port

private theorem delivered_safeNode {e : Emission} {n : Node} (delivered : Delivered e n)
    (clean : n.serverType ∈ serverTypes) (port : safePort n.port = true) :
    Delivered e (safeNode n) := by
  constructor
  · rw [safeNode_serverType, if_pos clean, delivered.serverType]
  · exact delivered.serverID
  · rw [safeNode_host, delivered.host, safeHost_safeHost]
  · rw [safeNode_port, if_pos port, delivered.port]

/-- Every node that was observed is under its own key. -/
private def Observed (c : Collector) : Prop :=
  ∀ entry ∈ c.observed, entry.1 = nodeKey entry.2.serverType entry.2.serverID ∧
    (entry.2.serverType ∈ serverTypes ∨ entry.2.serverType = "unknown")

/-- The collector has a clean node for each of these emissions, in their order. -/
private structure Full (c : Collector) (done : List Emission) : Prop where
  coverage : c.request.coverage = "complete" ∨ c.request.coverage = "unavailable"
  emitted : List.Forall₂ Delivered done c.emitted
  clean : ∀ n ∈ c.emitted, n.serverType ∈ serverTypes ∧ safePort n.port = true

private structure Tracks (c : Collector) (done : List Emission) : Prop where
  observed : Observed c
  short : c.emitted.length ≤ 2000
  full : c.request.coverage = "partial" ∨ Full c done

private theorem tracks_new (id transport ua : String) (now : Int) :
    Tracks (newCollector id transport ua now) [] := by
  constructor
  · intro entry member
    cases member
  · exact Nat.zero_le _
  · exact Or.inr ⟨Or.inr rfl, List.Forall₂.nil, fun _ member => by cases member⟩

variable {done : List Emission}

private theorem tracks_same {c' : Collector} (tracks : Tracks c done) (observed : Observed c')
    (emitted : c'.emitted = c.emitted) (coverage : c'.request.coverage = c.request.coverage) :
    Tracks c' done := by
  refine ⟨observed, emitted ▸ tracks.short, ?_⟩
  rcases tracks.full with lowered | full
  · exact Or.inl (coverage.trans lowered)
  · exact Or.inr ⟨coverage ▸ full.coverage, emitted ▸ full.emitted, emitted ▸ full.clean⟩

private theorem tracks_observe (tracks : Tracks c done) (node : Node) :
    Tracks (c.observe node) done := by
  have observed : Observed (c.observe node) := by
    intro entry member
    rcases List.mem_cons.mp member with rfl | member
    · exact ⟨rfl, safeNode_type node⟩
    · exact tracks.observed entry member
  exact tracks_same tracks observed rfl rfl

private theorem tracks_coverage (tracks : Tracks c done) {coverage : String}
    (reported : coverage = "complete" ∨ coverage = "partial") (reason : String) :
    Tracks (c.coverage coverage reason) done := by
  unfold Collector.coverage
  split
  next => exact tracks
  next raised =>
    refine ⟨tracks.observed, tracks.short, ?_⟩
    rcases reported with rfl | rfl
    · right
      -- a lowered coverage would have been kept
      have whole := tracks.full.resolve_left fun lowered => raised ⟨lowered, rfl⟩
      exact ⟨Or.inl rfl, whole.emitted, whole.clean⟩
    · exact Or.inl rfl

private def emittedNode (c : Collector) (e : Emission) : Node :=
  let n := (c.observed.lookup (nodeKey e.serverType e.id)).getD
    ⟨e.serverType, e.id, 0, 0, "", "", "", "", false, 0, 0, "unavailable"⟩
  safeNode { n with deliveredHost := e.host, port := e.port }

private structure Emittable (c : Collector) (e : Emission) : Prop where
  found : (c.observed.lookup (nodeKey e.serverType e.id)).isSome = true
  port : (emittedNode c e).port ≠ ""
  serverType : (emittedNode c e).serverType ≠ "unknown"
  room : c.emitted.length < 2000

private theorem emit_cases (c : Collector) (e : Emission) :
    (c.emit e.serverType e.id e.host e.port).observed = c.observed ∧
    ((c.emit e.serverType e.id e.host e.port).emitted = c.emitted ∨
      c.emitted.length < 2000 ∧ (c.emit e.serverType e.id e.host e.port).emitted =
        c.emitted ++ [emittedNode c e]) ∧
    ((c.emit e.serverType e.id e.host e.port).request.coverage = "partial" ∨
      Emittable c e ∧ c.emit e.serverType e.id e.host e.port =
        { c with emitted := c.emitted ++ [emittedNode c e] }) := by
  unfold Collector.emit
  dsimp only
  have node : safeNode { ((c.observed.lookup (nodeKey e.serverType e.id)).getD ⟨e.serverType, e.id,
      0, 0, "", "", "", "", false, 0, 0, "unavailable"⟩) with
        deliveredHost := e.host
        port := e.port } = emittedNode c e := rfl
  rw [node]
  -- the two ways in which the coverage is lowered before the limit
  generalize known : (if c.observed.lookup (nodeKey e.serverType e.id) = none then
    c.partially "runtime_provenance_missing" else c) = c₁
  generalize whole : (if (emittedNode c e).deliveredHost = "" ∨ (emittedNode c e).port = "" ∨
    (emittedNode c e).serverType = "unknown" then c₁.partially "endpoint_metadata_incomplete"
    else c₁) = c₂
  have first : c₁.observed = c.observed ∧ c₁.emitted = c.emitted ∧
      (c₁.request.coverage = "partial" ∨
        c₁ = c ∧ (c.observed.lookup (nodeKey e.serverType e.id)).isSome = true) := by
    rw [← known]
    split
    next => exact ⟨rfl, rfl, Or.inl rfl⟩
    next found => exact ⟨rfl, rfl, Or.inr ⟨rfl, Option.isSome_iff_ne_none.mpr found⟩⟩
  have second : c₂.observed = c₁.observed ∧ c₂.emitted = c₁.emitted ∧
      (c₂.request.coverage = "partial" ∨
        c₂ = c₁ ∧ (emittedNode c e).port ≠ "" ∧ (emittedNode c e).serverType ≠ "unknown") := by
    rw [← whole]
    split
    next => exact ⟨rfl, rfl, Or.inl rfl⟩
    next present =>
      obtain ⟨-, port, serverType⟩ := by simpa only [not_or] using present
      exact ⟨rfl, rfl, Or.inr ⟨rfl, port, serverType⟩⟩
  obtain ⟨observed₁, emitted₁, level₁⟩ := first
  obtain ⟨observed₂, emitted₂, level₂⟩ := second
  split
  next => exact ⟨observed₂.trans observed₁, Or.inl (emitted₂.trans emitted₁), Or.inl rfl⟩
  next limit =>
    have room : c.emitted.length < 2000 := by
      rw [emitted₂, emitted₁] at limit
      exact not_le.mp limit
    refine ⟨observed₂.trans observed₁, Or.inr ⟨room, by rw [emitted₂, emitted₁]⟩, ?_⟩
    rcases level₂ with lowered | ⟨rfl, port, serverType⟩
    · exact Or.inl lowered
    · rcases level₁ with lowered | ⟨rfl, found⟩
      · exact Or.inl lowered
      · exact Or.inr ⟨⟨found, port, serverType, room⟩, rfl⟩

private theorem delivered_emitted {e : Emission} (observed : Observed c) (emittable : Emittable c e)
    :
    Delivered e (emittedNode c e) ∧
      (emittedNode c e).serverType ∈ serverTypes ∧ safePort (emittedNode c e).port = true := by
  obtain ⟨n, found⟩ := Option.isSome_iff_exists.mp emittable.found
  have node : emittedNode c e = safeNode { n with deliveredHost := e.host, port := e.port } := by
    rw [emittedNode, found, Option.getD_some]
  obtain ⟨earlier, later, whole, -⟩ := List.lookup_eq_some_iff.mp found
  have member : (nodeKey e.serverType e.id, n) ∈ c.observed := by
    rw [whole]
    exact List.mem_append_right _ List.mem_cons_self
  obtain ⟨key, named⟩ := observed _ member
  obtain ⟨serverType, serverID⟩ := nodeKey_injective named key.symm
  have port := emittable.port
  have known := emittable.serverType
  rw [node] at port known ⊢
  rw [safeNode_port] at port
  rw [safeNode_serverType] at known
  split at port
  next safe =>
    split at known
    next listed =>
      have clean := safeNode_serverType { n with deliveredHost := e.host, port := e.port }
      rw [if_pos listed] at clean
      have kept := safeNode_port { n with deliveredHost := e.host, port := e.port }
      rw [if_pos safe] at kept
      refine ⟨⟨clean.trans serverType, serverID, safeNode_host _, kept⟩, ?_, ?_⟩
      · rw [clean]
        exact listed
      · rw [kept]
        exact safe
    next => exact absurd rfl known
  next => exact absurd rfl port

private theorem tracks_emit (tracks : Tracks c done) (e : Emission) :
    Tracks (c.emit e.serverType e.id e.host e.port) (done ++ [e]) := by
  obtain ⟨observed, emitted, level⟩ := emit_cases c e
  constructor
  · rw [Observed, observed]
    exact tracks.observed
  · rcases emitted with same | ⟨room, more⟩
    · rw [same]
      exact tracks.short
    · rw [more, List.length_append, List.length_singleton]
      omega
  · rcases level with lowered | ⟨emittable, same⟩
    · exact Or.inl lowered
    · rw [same]
      rcases tracks.full with lowered | full
      · exact Or.inl lowered
      · right
        obtain ⟨delivered, clean⟩ := delivered_emitted tracks.observed emittable
        refine ⟨full.coverage, List.rel_append full.emitted
          (List.Forall₂.cons delivered List.Forall₂.nil), ?_⟩
        intro n member
        rcases List.mem_append.mp member with member | last
        · exact full.clean n member
        · rw [List.mem_singleton.mp last]
          exact clean

private theorem tracks_call (tracks : Tracks c done) (call : Call) (ordinary : call.Ordinary) :
    Tracks (c.call call) (done ++ call.emission.toList) := by
  cases call with
  | setUser id email =>
    have same : done ++ (Call.setUser id email).emission.toList = done := List.append_nil done
    rw [same, Collector.call, Collector.setUser]
    split
    · exact tracks_same tracks tracks.observed rfl rfl
    · exact tracks_same tracks tracks.observed rfl rfl
  | observe node =>
    have same : done ++ (Call.observe node).emission.toList = done := List.append_nil done
    rw [same]
    exact tracks_observe tracks node
  | override node =>
    have same : done ++ (Call.override node).emission.toList = done := List.append_nil done
    rw [same]
    exact tracks_observe tracks node
  | emit serverType id host port => exact tracks_emit tracks ⟨serverType, id, host, port⟩
  | coverage level reason =>
    have same : done ++ (Call.coverage level reason).emission.toList = done := List.append_nil done
    rw [same]
    exact tracks_coverage tracks ordinary reason

private theorem tracks_calls (tracks : Tracks c done) (calls : List Call)
    (ordinary : ∀ call ∈ calls, call.Ordinary) :
    Tracks (run Collector.call c calls) (done ++ emissions calls) := by
  induction calls generalizing c done with
  | nil =>
    rw [emissions, List.filterMap_nil, List.append_nil]
    exact tracks
  | cons call rest ih =>
    have first := tracks_call tracks call (ordinary call List.mem_cons_self)
    have later := ih first fun call member => ordinary call (List.mem_cons_of_mem _ member)
    have more : emissions (call :: rest) = call.emission.toList ++ emissions rest := by
      rw [emissions, emissions, List.filterMap_cons]
      cases call.emission <;> rfl
    rw [run_cons, more, ← List.append_assoc]
    exact later

/-- What `Finish` makes of a collector that followed these emissions. -/
private structure Finished (done : List Emission) (status : Int) (writeError : String)
    (r : Request) (nodes : List Node) : Prop where
  status : r.status = status
  writeError : r.writeError = writeError
  short : nodes.length ≤ 2000
  complete : r.coverage = "complete" → List.Forall₂ Delivered done nodes ∧
    ∀ n ∈ nodes, n.serverType ∈ serverTypes ∧ safePort n.port = true
  notEmitted : r.coverage = "not_emitted" → nodes = []

private theorem finished_of_tracks (tracks : Tracks c done) (now status bytes : Int)
    (writeError : String) :
    Finished done status writeError (c.finish now status bytes writeError).1
      (c.finish now status bytes writeError).2 := by
  have complete : c.request.coverage = "complete" →
      List.Forall₂ Delivered done c.emitted ∧
        ∀ n ∈ c.emitted, n.serverType ∈ serverTypes ∧ safePort n.port = true := by
    intro level
    rcases tracks.full with lowered | full
    · rw [level] at lowered
      exact absurd lowered (by decide)
    · exact ⟨full.emitted, full.clean⟩
  have emitted : c.request.coverage = "not_emitted" → c.emitted = [] := by
    intro level
    rcases tracks.full with lowered | full
    · rw [level] at lowered
      exact absurd lowered (by decide)
    · rcases full.coverage with other | other <;>
        (rw [level] at other; exact absurd other (by decide))
  unfold Collector.finish
  dsimp only
  split
  next =>
    refine ⟨rfl, rfl, Nat.zero_le _, ?_, fun _ => rfl⟩
    intro level
    have other : "not_emitted" ≠ "complete" := by decide
    exact absurd level other
  next =>
    split
    next => exact ⟨rfl, rfl, tracks.short, complete, emitted⟩
    next => exact ⟨rfl, rfl, tracks.short, complete, emitted⟩

private theorem covered_coverage (r : Request) (level reason : String) :
    (r.covered level reason).coverage = level := rfl

private theorem covered_id (r : Request) (level reason : String) :
    (r.covered level reason).id = r.id := rfl

private theorem covered_responseComplete (r : Request) (level reason : String) :
    (r.covered level reason).responseComplete = r.responseComplete := rfl

private theorem counted_request (r : Request) (nodes : List Node) :
    (counted r nodes).1.id = r.id ∧ (counted r nodes).1.responseComplete = r.responseComplete ∧
      ((counted r nodes).1.coverage = r.coverage ∨ (counted r nodes).1.coverage = "partial") := by
  simp only [counted]
  split
  · exact ⟨rfl, rfl, Or.inr rfl⟩
  · exact ⟨rfl, rfl, Or.inl rfl⟩

private theorem counted_complete (complete : (counted r nodes).1.coverage = "complete") :
    r.coverage = "complete" ∧ ∀ n ∈ nodes, validDeliveryNode (safeNode n) = true := by
  have lowered : ∀ reason, (r.covered "partial" reason).coverage ≠ "complete" := by
    intro reason
    simp [Request.covered]
  simp only [counted] at complete
  split at complete
  next => exact absurd complete (lowered _)
  next valid =>
    refine ⟨complete, fun n member => ?_⟩
    by_contra missing
    apply valid
    refine ⟨complete, fun all => missing ?_⟩
    exact List.all_eq_true.mp all _ (List.mem_map_of_mem member)

private theorem toStore_cases (r : Request) (nodes : List Node) :
    (toStore r nodes = counted ((normalized r).covered "not_emitted" "not_modified") []) ∨
    (toStore r nodes = counted ((normalized r).covered "partial" "node_limit") (nodes.take 2000)) ∨
    toStore r nodes = counted (normalized r) nodes := by
  simp only [toStore]
  split
  next => exact Or.inl rfl
  next =>
    split
    next => exact Or.inr (Or.inl rfl)
    next => exact Or.inr (Or.inr rfl)

theorem toStore_id (r : Request) (nodes : List Node) : (toStore r nodes).1.id = r.id := by
  have same : (normalized r).id = r.id := by simp only [normalized]
  rcases toStore_cases r nodes with is | is | is
  · rw [is, (counted_request _ _).1, covered_id, same]
  · rw [is, (counted_request _ _).1, covered_id, same]
  · rw [is, (counted_request _ _).1, same]

theorem toStore_responseComplete (complete : (toStore r nodes).1.responseComplete = true) :
    200 ≤ r.status ∧ r.status < 300 ∧ r.writeError = "" := by
  have same : (normalized r).responseComplete = true := by
    rw [← complete]
    rcases toStore_cases r nodes with is | is | is
    · rw [is, (counted_request _ _).2.1, covered_responseComplete]
    · rw [is, (counted_request _ _).2.1, covered_responseComplete]
    · rw [is, (counted_request _ _).2.1]
  simp only [normalized, Bool.and_eq_true, decide_eq_true_eq] at same
  obtain ⟨⟨⟨⟨-, low⟩, high⟩, error⟩, -⟩ := same
  refine ⟨low, high, ?_⟩
  split at error
  next => exact error
  next => exact absurd error (by decide)

private theorem normalized_coverage {level : String} (other : level ≠ "unavailable")
    (same : (normalized r).coverage = level) : r.coverage = level := by
  simp only [normalized] at same
  split at same
  next => exact same
  next => exact absurd same.symm other

theorem toStore_complete (complete : (toStore r nodes).1.coverage = "complete") :
    r.coverage = "complete" ∧ (toStore r nodes).2 = nodes.map safeNode ∧
      ∀ n ∈ nodes, validDeliveryNode (safeNode n) = true := by
  rcases toStore_cases r nodes with is | is | is
  · rw [is] at complete
    have level := (counted_complete complete).1
    rw [covered_coverage] at level
    exact absurd level (by decide)
  · rw [is] at complete
    have level := (counted_complete complete).1
    rw [covered_coverage] at level
    exact absurd level (by decide)
  · rw [is] at complete ⊢
    obtain ⟨level, valid⟩ := counted_complete complete
    exact ⟨normalized_coverage (by decide) level, rfl, valid⟩

private theorem toStore_notEmitted (level : (toStore r nodes).1.coverage = "not_emitted") :
    (toStore r nodes).2 = [] ∨ r.coverage = "not_emitted" := by
  have other : "partial" ≠ "not_emitted" := by decide
  rcases toStore_cases r nodes with is | is | is
  · left
    rw [is]
    rfl
  · rw [is] at level
    have kept := (counted_request ((normalized r).covered "partial" "node_limit")
      (nodes.take 2000)).2.2
    rw [level, covered_coverage] at kept
    rcases kept with kept | kept <;> exact absurd kept.symm other
  · right
    rw [is] at level
    have kept := (counted_request (normalized r) nodes).2.2
    rw [level] at kept
    rcases kept with kept | kept
    · exact normalized_coverage (by decide) kept.symm
    · exact absurd kept.symm other

private theorem toStore_nil (r : Request) : (toStore r []).2 = [] := by
  rcases toStore_cases r [] with is | is | is <;> rw [is] <;> rfl

private theorem toStore_nodeCount (r : Request) (nodes : List Node) :
    (toStore r nodes).1.nodeCount = (toStore r nodes).2.length := by
  rcases toStore_cases r nodes with is | is | is <;> rw [is] <;> rfl

/-- Every node row belongs to a request, whose count is the number of its rows. -/
structure Evidence.Sound (db : Evidence) : Prop where
  ids : db.requests.Pairwise fun r s => r.id ≠ s.id
  owned : ∀ row ∈ db.nodes, ∃ r ∈ db.requests, r.id = row.requestID
  counted : ∀ r ∈ db.requests,
    (db.nodesOf r.id).map NodeRow.ordinal = List.range r.nodeCount

theorem record_cases (recorded : record db r nodes = .ok db') :
    (∀ s ∈ db.requests, s.id ≠ r.id) ∧
      db' = ⟨db.requests ++ [(toStore r nodes).1], db.nodes ++
        (toStore r nodes).2.mapIdx fun i node => ⟨r.id, i, node⟩⟩ := by
  simp only [record, bind_eq_ok, ensure_eq_ok, toStore_id] at recorded
  obtain ⟨-, -, -, -, -, fresh, same⟩ := recorded
  exact ⟨fresh, (Except.ok.inj same).symm⟩

theorem nodesOf_record (sound : db.Sound) (recorded : record db r nodes = .ok db') :
    db'.nodesOf r.id = (toStore r nodes).2.mapIdx fun i node => ⟨r.id, i, node⟩ := by
  obtain ⟨fresh, rfl⟩ := record_cases recorded
  have others : db.nodes.filter (fun row => row.requestID = r.id) = [] := by
    rw [List.filter_eq_nil_iff]
    intro row member own
    obtain ⟨s, listed, same⟩ := sound.owned row member
    exact fresh s listed (same.trans (of_decide_eq_true own))
  rw [Evidence.nodesOf, List.filter_append, others, List.nil_append, List.filter_eq_self]
  intro row member
  obtain ⟨i, inside, rfl⟩ := List.mem_mapIdx.mp member
  exact decide_eq_true rfl

theorem sound_record (sound : db.Sound) (recorded : record db r nodes = .ok db') : db'.Sound := by
  have own := nodesOf_record sound recorded
  obtain ⟨fresh, rfl⟩ := record_cases recorded
  have key := toStore_id r nodes
  constructor
  · rw [List.pairwise_append]
    refine ⟨sound.ids, List.pairwise_singleton _ _, ?_⟩
    intro s listed t last
    rw [List.mem_singleton.mp last, key]
    exact fresh s listed
  · intro row member
    rcases List.mem_append.mp member with member | member
    · obtain ⟨s, listed, same⟩ := sound.owned row member
      exact ⟨s, List.mem_append_left _ listed, same⟩
    · obtain ⟨i, inside, rfl⟩ := List.mem_mapIdx.mp member
      exact ⟨_, List.mem_append_right _ List.mem_cons_self, key⟩
  · intro s listed
    rcases List.mem_append.mp listed with listed | last
    · have apart : ∀ row ∈ (toStore r nodes).2.mapIdx (fun i node => (⟨r.id, i, node⟩ : NodeRow)),
          ¬decide (row.requestID = s.id) = true := by
        intro row member
        obtain ⟨i, inside, rfl⟩ := List.mem_mapIdx.mp member
        rw [decide_eq_true_eq]
        exact fun same => fresh s listed same.symm
      rw [← sound.counted s listed, Evidence.nodesOf, Evidence.nodesOf, List.filter_append,
        List.filter_eq_nil_iff.mpr apart, List.append_nil]
    · rw [List.mem_singleton.mp last, key, own, toStore_nodeCount]
      apply List.ext_getElem
      · simp
      · intro i _ _
        simp

theorem sound_cleanup (sound : db.Sound) (old : List String) : (cleanup db old).Sound := by
  constructor
  · exact sound.ids.filter _
  · intro row member
    obtain ⟨listed, kept⟩ := List.mem_filter.mp member
    obtain ⟨r, known, same⟩ := sound.owned row listed
    refine ⟨r, List.mem_filter.mpr ⟨known, ?_⟩, same⟩
    rw [same]
    exact kept
  · intro r member
    obtain ⟨listed, kept⟩ := List.mem_filter.mp member
    rw [← sound.counted r listed, Evidence.nodesOf, Evidence.nodesOf, cleanup, List.filter_filter]
    congr 1
    apply List.filter_congr
    intro row _
    by_cases own : row.requestID = r.id
    · simpa [own] using kept
    · simp [own]

theorem sound_run (writes : List Write) : (run Evidence.write .empty writes).Sound := by
  apply run_invariant (G := fun _ _ => True) (I := Evidence.Sound)
  · intro db write sound _
    cases write with
    | record r nodes =>
      rw [Evidence.write]
      split
      next db' recorded => exact sound_record sound recorded
      next => exact sound
    | cleanup old => exact sound_cleanup sound old
  · constructor
    · exact List.Pairwise.nil
    · intro row member
      cases member
    · intro r member
      cases member
  · exact along_true _ _

private theorem emitted_stored (emitted : List.Forall₂ Delivered done nodes)
    (clean : ∀ n ∈ nodes, n.serverType ∈ serverTypes ∧ safePort n.port = true) :
    List.Forall₂ Delivered done (nodes.map safeNode) := by
  induction emitted with
  | nil => exact List.Forall₂.nil
  | cons delivered rest ih =>
    obtain ⟨serverType, port⟩ := clean _ List.mem_cons_self
    exact List.Forall₂.cons (delivered_safeNode delivered serverType port)
      (ih fun n member => clean n (List.mem_cons_of_mem _ member))

/-- Whatever calls a collector has seen, and whatever was recorded before: the request that
is stored counts its nodes, stores none where nothing was emitted, and is complete only
after a successful response with a known node for every `Emit`, in the order of the calls. -/
theorem delivery_never_overstated {before : List Write} {id transport ua writeError : String}
    {started now status bytes : Int} {calls : List Call}
    (ordinary : ∀ call ∈ calls, call.Ordinary) {r : Request} {nodes : List Node}
    (finished : (run Collector.call (newCollector id transport ua started) calls).finish
      now status bytes writeError = (r, nodes)) {db : Evidence}
    (recorded : record (run Evidence.write .empty before) r nodes = .ok db) :
    ∃ request ∈ db.requests, request.id = r.id ∧
      request.nodeCount = (db.nodesOf r.id).length ∧
      (request.coverage = "not_emitted" → db.nodesOf r.id = []) ∧
      (request.responseComplete = true → request.coverage = "complete" →
        200 ≤ status ∧ status < 300 ∧ writeError = "" ∧
        (db.nodesOf r.id).map NodeRow.ordinal = List.range (emissions calls).length ∧
        List.Forall₂ Delivered (emissions calls) ((db.nodesOf r.id).map NodeRow.node) ∧
        ∀ row ∈ db.nodesOf r.id, row.node.Known) := by
  have tracks := tracks_calls (tracks_new id transport ua started) calls ordinary
  have facts : Finished (emissions calls) status writeError r nodes := by
    have whole := finished_of_tracks tracks now status bytes writeError
    rwa [finished, List.nil_append] at whole
  have sound := sound_run before
  have own := nodesOf_record sound recorded
  have stored : (db.nodesOf r.id).map NodeRow.node = (toStore r nodes).2 := by
    rw [own]
    apply List.ext_getElem
    · simp
    · intro i _ _
      simp
  have after := sound_record sound recorded
  obtain ⟨-, tables⟩ := record_cases recorded
  have listed : (toStore r nodes).1 ∈ db.requests := by
    rw [tables]
    exact List.mem_append_right _ List.mem_cons_self
  have ordinals := after.counted _ listed
  rw [toStore_id, toStore_nodeCount] at ordinals
  refine ⟨(toStore r nodes).1, listed, toStore_id r nodes, ?_, ?_, ?_⟩
  · rw [toStore_nodeCount, ← stored, List.length_map]
  · intro level
    have none : (toStore r nodes).2 = [] := by
      rcases toStore_notEmitted level with none | reported
      · exact none
      · rw [facts.notEmitted reported]
        exact toStore_nil r
    rw [own, none, List.mapIdx_nil]
  · intro complete level
    obtain ⟨low, high, error⟩ := toStore_responseComplete complete
    obtain ⟨reported, kept, valid⟩ := toStore_complete level
    obtain ⟨emitted, clean⟩ := facts.complete reported
    rw [facts.status] at low high
    rw [facts.writeError] at error
    refine ⟨low, high, error, ?_, ?_, ?_⟩
    · rw [ordinals, kept, List.length_map, ← emitted.length_eq]
    · rw [stored, kept]
      exact emitted_stored emitted clean
    · intro row member
      have node : row.node ∈ (toStore r nodes).2 := by
        rw [← stored]
        exact List.mem_map_of_mem member
      rw [kept] at node
      obtain ⟨n, known, same⟩ := List.mem_map.mp node
      rw [← same]
      exact known_of_valid (valid n known)

private def sampleCalls : List Call :=
  [.setUser 7 "a@example.com",
    .observe ⟨"vmess", 3, 0, 0, "", "10.0.0.1", "10.0.0.1", "443", false, 0, 0, "default"⟩,
    .emit "vmess" 3 "10.0.0.1" "443", .coverage "complete" ""]

private def sample : Request × List Node :=
  (run Collector.call (newCollector "r" "subscription" "clash" 100) sampleCalls).finish 101 200 64 ""

theorem delivery_never_overstated_sample : ∃ db,
    record (run Evidence.write .empty []) sample.1 sample.2 = .ok db ∧
      ∃ request ∈ db.requests, request.nodeCount = (db.nodesOf sample.1.id).length := by
  have ordinary : ∀ call ∈ sampleCalls, call.Ordinary := by
    simp [sampleCalls, Call.Ordinary]
  have stored : (record (run Evidence.write .empty [])
      sample.1 sample.2).toOption.isSome = true := by
    decide +kernel
  cases recorded : record (run Evidence.write .empty []) sample.1 sample.2 with
  | error e =>
    rw [recorded] at stored
    cases stored
  | ok db =>
    have finished : (run Collector.call (newCollector "r" "subscription" "clash" 100)
        sampleCalls).finish 101 200 64 "" = (sample.1, sample.2) := rfl
    obtain ⟨request, listed, -, counted, -⟩ :=
      delivery_never_overstated ordinary finished recorded
    exact ⟨db, rfl, request, listed, counted⟩

end EntryEvidence

end ForestPanel
