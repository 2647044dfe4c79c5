import ForestPanel.DNSFailover.ProbeReport

/-!
# A batch of probe results is its results one at a time

A batch is folded to one row for each target before the stored states are looked at. The row,
joined with what was stored, is at every point of the fold what the results so far would have
left behind one by one: a change starts the streak anew on both ways, and a streak that goes on
is stored as fresh.
-/
namespace ForestPanel.DNSFailover

open EntryMonitor Relational Outcome

structure Finding where
  lastSuccess : Option Int
  lastLatencyMS : Option Int
  lastError : String
  lastResolvedIP : String
  consecutiveSuccess : Int
  consecutiveFailure : Int
  lastReportedAt : Option Int
deriving DecidableEq

def StateRow.finding (s : StateRow) : Finding where
  lastSuccess := s.lastSuccess
  lastLatencyMS := s.lastLatencyMS
  lastError := s.lastError
  lastResolvedIP := s.lastResolvedIP
  consecutiveSuccess := s.consecutiveSuccess
  consecutiveFailure := s.consecutiveFailure
  lastReportedAt := s.lastReportedAt

def BatchRow.finding (row : BatchRow) (now : Int) : Finding where
  lastSuccess := some row.lastSuccess
  lastLatencyMS := row.latencyMS
  lastError := row.lastError
  lastResolvedIP := row.resolvedIP
  consecutiveSuccess := row.initialSuccess
  consecutiveFailure := row.initialFailure
  lastReportedAt := some now

def findingOf (states : Table StateRow.key StateRow.key) (key : Int × Int) : Option Finding :=
  (states.find? key).map StateRow.finding

def allowedWith (group : GroupRow) (found : Option Finding) : AllowedTarget where
  group
  lastSuccess := found.bind (·.lastSuccess)
  successStreak := (found.map (·.consecutiveSuccess)).getD 0
  failureStreak := (found.map (·.consecutiveFailure)).getD 0
  lastReportedAt := found.bind (·.lastReportedAt)

def foundNext (group : GroupRow) (now : Int) (found : Option Finding) (r : DNSProbeResult) :
    Option Finding :=
  some (((BatchRow.start r).join (allowedWith group found) now).finding now)

private theorem allowedTarget_eq (db : Base) (probeID targetID : Int) :
    allowedTarget db probeID targetID = (allowedGroup db probeID targetID).map fun group =>
      allowedWith group (findingOf db.states (probeID, targetID)) := by
  unfold allowedTarget findingOf
  cases allowedGroup db probeID targetID with
  | none => rfl
  | some group => cases db.states.find? (probeID, targetID) <;> rfl

private theorem saturating_eq (a b : Int) : saturatingDNSProbeStreakAdd a b =
    min (max a 0 + max b 0) maxDNSProbeStreak := by
  unfold saturatingDNSProbeStreakAdd maxDNSProbeStreak
  dsimp only
  split_ifs <;> omega

private theorem saturating_succ (a b : Int) :
    saturatingDNSProbeStreakAdd a (saturatingDNSProbeStreakAdd b 1) =
      saturatingDNSProbeStreakAdd (saturatingDNSProbeStreakAdd a b) 1 := by
  simp only [saturating_eq]
  unfold maxDNSProbeStreak
  omega

private theorem fresh_reported (group : GroupRow) (now : Nat) :
    dnsFailoverProbeStateFresh (some (now : Int)) now group.checkIntervalSec group.tcpTimeoutMS
      group.probeOfflineSec = true := by
  obtain ⟨interval, timeout, offline⟩ := group.timing
  have valid : ¬((now : Int) < 0 ∨ (now : Int) < now ∨ group.checkIntervalSec ≤ 0 ∨
      group.tcpTimeoutMS ≤ 0 ∨ group.probeOfflineSec ≤ 0) := by omega
  simp only [dnsFailoverProbeStateFresh, if_neg valid, decide_eq_true_eq]
  unfold EntryMonitor.maxInt64 EntryMonitor.minInt64
  split_ifs <;> omega

private theorem values_outcome (r : DNSProbeResult) :
    dnsProbeStateWriteValues r = ⟨1, "", 1, 0⟩ ∨
      dnsProbeStateWriteValues r = ⟨0, r.error, 0, 1⟩ := by
  unfold dnsProbeStateWriteValues
  split
  · exact .inl rfl
  · exact .inr rfl

/-- The stored state does not count for the row. -/
def BatchRow.Anew (row : BatchRow) (current : AllowedTarget) (now : Int) : Prop :=
  row.transition = true ∨ current.lastSuccess ≠ some row.lastSuccess ∨
    dnsFailoverProbeStateFresh current.lastReportedAt now current.group.checkIntervalSec
      current.group.tcpTimeoutMS current.group.probeOfflineSec = false

variable {row : BatchRow} {r : DNSProbeResult} {now : Nat} {rs : List DNSProbeResult} {db : Base}
  {probeID : Int}

private theorem join_anew {current : AllowedTarget} {now : Int} (anew : row.Anew current now) :
    row.join current now = row := if_pos anew

private theorem join_known {current : AllowedTarget} {now : Int} (known : ¬row.Anew current now) :
    row.join current now =
      if row.lastSuccess = 1 then
        { row with
          initialSuccess := saturatingDNSProbeStreakAdd current.successStreak row.initialSuccess
          initialFailure := 0 }
      else
        { row with
          initialSuccess := 0
          initialFailure :=
            saturatingDNSProbeStreakAdd current.failureStreak row.initialFailure } :=
  if_neg known

private theorem join_lastSuccess (row : BatchRow) (current : AllowedTarget) (now : Int) :
    (row.join current now).lastSuccess = row.lastSuccess := by
  unfold BatchRow.join
  split_ifs <;> rfl

private theorem add_changed (changed : row.lastSuccess ≠ (dnsProbeStateWriteValues r).success)
    (current : AllowedTarget) (now : Int) :
    ((row.add r).join current now).finding now = (BatchRow.start r).finding now := by
  rw [join_anew (.inl (by simp [BatchRow.add, changed]))]
  simp only [BatchRow.finding, BatchRow.add, BatchRow.start, if_pos changed]

private theorem foundNext_changed {group : GroupRow} {now : Int} {found : Finding}
    (changed : found.lastSuccess ≠ some (dnsProbeStateWriteValues r).success) :
    foundNext group now (some found) r = some ((BatchRow.start r).finding now) := by
  rw [foundNext, join_anew]
  exact .inr (.inl changed)

private theorem foundNext_same {group : GroupRow} {found : Finding}
    (fresh : found.lastReportedAt = some (now : Int))
    (same : found.lastSuccess = some (dnsProbeStateWriteValues r).success) :
    foundNext group now (some found) r = some { (BatchRow.start r).finding now with
      consecutiveSuccess :=
        if (dnsProbeStateWriteValues r).success = 1 then
          saturatingDNSProbeStreakAdd found.consecutiveSuccess 1
        else 0
      consecutiveFailure :=
        if (dnsProbeStateWriteValues r).success = 1 then 0
        else saturatingDNSProbeStreakAdd found.consecutiveFailure 1 } := by
  have known : ¬(BatchRow.start r).Anew (allowedWith group (some found)) now := by
    rintro (impossible | other | stale)
    · cases impossible
    · exact other same
    · simp only [allowedWith, Option.bind_some, fresh, fresh_reported group now] at stale
      cases stale
  rw [foundNext, join_known known]
  rcases values_outcome r with worked | failed
  · simp only [BatchRow.start, worked, BatchRow.finding, allowedWith, if_true, Option.map_some,
      Option.getD_some]
  · simp [BatchRow.start, failed, BatchRow.finding, allowedWith]

private theorem add_same (same : row.lastSuccess = (dnsProbeStateWriteValues r).success)
    (group : GroupRow) (found : Option Finding) (now : Nat) :
    some (((row.add r).join (allowedWith group found) now).finding now) =
      foundNext group now (some ((row.join (allowedWith group found) now).finding now)) r := by
  have kept : (row.add r).lastSuccess = row.lastSuccess := same.symm
  have going : (row.add r).transition = row.transition := by
    simp [BatchRow.add, same]
  have alike : (row.add r).Anew (allowedWith group found) now ↔
      row.Anew (allowedWith group found) now := by
    rw [BatchRow.Anew, kept, going, BatchRow.Anew]
  rw [foundNext_same rfl (by rw [BatchRow.finding, join_lastSuccess, same])]
  by_cases anew : row.Anew (allowedWith group found) now
  · rw [join_anew (alike.mpr anew), join_anew anew]
    simp [BatchRow.finding, BatchRow.add, BatchRow.start, same]
  · rw [join_known (mt alike.mp anew), join_known anew, kept]
    rcases values_outcome r with worked | failed
    · have one : row.lastSuccess = 1 := by rw [same, worked]
      simp only [one, worked, BatchRow.finding, BatchRow.add, BatchRow.start, if_true,
        ne_eq, not_true_eq_false, if_false, saturating_succ]
    · have zero : row.lastSuccess = 0 := by rw [same, failed]
      simp [zero, failed, BatchRow.finding, BatchRow.add, BatchRow.start, saturating_succ]

private theorem add_next (row : BatchRow) (r : DNSProbeResult) (group : GroupRow)
    (found : Option Finding) (now : Nat) :
    some (((row.add r).join (allowedWith group found) now).finding now) =
      foundNext group now (some ((row.join (allowedWith group found) now).finding now)) r := by
  by_cases same : row.lastSuccess = (dnsProbeStateWriteValues r).success
  · exact add_same same group found now
  · rw [add_changed same, foundNext_changed]
    rw [BatchRow.finding, join_lastSuccess]
    exact fun equal => same (Option.some.inj equal)

def nextRow (row : Option BatchRow) (r : DNSProbeResult) : Option BatchRow :=
  some (match row with
    | some row => row.add r
    | none => .start r)

private theorem foldl_nextRow (rs : List DNSProbeResult) (row : BatchRow) (group : GroupRow)
    (found : Option Finding) (now : Nat) :
    ∃ row', rs.foldl nextRow (some row) = some row' ∧
      some ((row'.join (allowedWith group found) now).finding now) =
        rs.foldl (foundNext group now)
          (some ((row.join (allowedWith group found) now).finding now)) := by
  induction rs generalizing row with
  | nil => exact ⟨row, rfl, rfl⟩
  | cons r rs ih =>
    obtain ⟨row', folded, joined⟩ := ih (row.add r)
    refine ⟨row', folded, ?_⟩
    rw [joined, add_next, List.foldl_cons]

theorem batch_of_target (rs : List DNSProbeResult) (group : GroupRow) (found : Option Finding)
    (now : Nat) :
    (match rs.foldl nextRow none with
      | some row => some ((row.join (allowedWith group found) now).finding now)
      | none => found) = rs.foldl (foundNext group now) found := by
  cases rs with
  | nil => rfl
  | cons r rs =>
    obtain ⟨row', folded, joined⟩ := foldl_nextRow rs (.start r) group found now
    rw [List.foldl_cons, List.foldl_cons]
    change (match rs.foldl nextRow (some (.start r)) with
      | some row => some ((row.join (allowedWith group found) now).finding now)
      | none => found) = _
    rw [folded]
    exact joined

private theorem find?_addResult (rows : BatchRows) (r : DNSProbeResult) (targetID : Int) :
    (addResult rows r).find? targetID =
      if r.targetID = targetID then nextRow (rows.find? targetID) r else rows.find? targetID := by
  unfold addResult
  cases found : rows.find? r.targetID with
  | none =>
    dsimp only
    rw [Table.find?_upsert]
    change (if r.targetID = targetID then _ else _) = _
    split
    next same =>
      rw [← same, found]
      rfl
    next => rfl
  | some row =>
    have named : row.targetID = r.targetID := Table.key_of_find? found
    have own : (row.add r).targetID = r.targetID := named
    dsimp only
    rw [Table.find?_upsert, own]
    split
    next same =>
      rw [← same, found]
      rfl
    next => rfl

private theorem find?_foldl_addResult (rs : List DNSProbeResult) (rows : BatchRows)
    (targetID : Int) : (rs.foldl addResult rows).find? targetID =
      (rs.filter (·.targetID = targetID)).foldl nextRow (rows.find? targetID) := by
  induction rs generalizing rows with
  | nil => rfl
  | cons r rs ih =>
    rw [List.foldl_cons, ih, find?_addResult]
    by_cases same : r.targetID = targetID
    · rw [if_pos same, List.filter_cons_of_pos (by simpa using same), List.foldl_cons]
    · rw [if_neg same, List.filter_cons_of_neg (by simpa using same)]

private theorem findingOf_writeState (probeID now warmedUp : Int)
    (states : Table StateRow.key StateRow.key) (row : BatchRow) (key : Int × Int) :
    findingOf (writeState probeID now warmedUp states row) key =
      if (probeID, row.targetID) = key then some (row.finding now) else findingOf states key := by
  unfold findingOf writeState
  rw [Table.find?_upsert]
  change Option.map StateRow.finding (if (probeID, row.targetID) = key then _ else _) = _
  split <;> rfl

private theorem findingOf_foldl_writeState (probeID now warmedUp : Int) (rows : List BatchRow)
    (distinct : (rows.map BatchRow.targetID).Nodup) (states : Table StateRow.key StateRow.key)
    (key : Int × Int) :
    findingOf (rows.foldl (writeState probeID now warmedUp) states) key =
      if key.1 = probeID then
        match rows.find? (·.targetID = key.2) with
        | some row => some (row.finding now)
        | none => findingOf states key
      else findingOf states key := by
  induction rows generalizing states with
  | nil => simp
  | cons row rows ih =>
    rw [List.map_cons, List.nodup_cons] at distinct
    rw [List.foldl_cons, ih distinct.2, findingOf_writeState]
    by_cases own : key.1 = probeID
    · rw [if_pos own, if_pos own]
      by_cases same : row.targetID = key.2
      · have gone : rows.find? (·.targetID = key.2) = none := by
          rw [List.find?_eq_none]
          intro other member listed
          rw [decide_eq_true_eq] at listed
          exact distinct.1 (same.trans listed.symm ▸ List.mem_map_of_mem member)
        rw [gone, List.find?_cons_of_pos (by simpa using same)]
        exact if_pos (Prod.ext own.symm same)
      · rw [List.find?_cons_of_neg (by simpa using same)]
        cases rows.find? (·.targetID = key.2) with
        | some other => rfl
        | none => exact if_neg fun equal => same (congrArg Prod.snd equal)
    · rw [if_neg own, if_neg own]
      exact if_neg fun equal => own (congrArg Prod.fst equal).symm

private theorem targetID_joinStored (db : Base) (probeID now : Int) (row : BatchRow) :
    (joinStored db probeID now row).targetID = row.targetID := by
  unfold joinStored BatchRow.join
  split
  · split_ifs <;> rfl
  · rfl

def foundAll (db : Base) (probeID now : Int) (rs : List DNSProbeResult) (key : Int × Int) :
    Option Finding :=
  match allowedGroup db probeID key.2 with
  | some group =>
    if key.1 = probeID then
      (rs.filter (·.targetID = key.2)).foldl (foundNext group now) (findingOf db.states key)
    else findingOf db.states key
  | none => findingOf db.states key

private theorem findingOf_writeStates (db : Base) (probeID warmedUp : Int) (now : Nat)
    (allowed : ∀ r ∈ rs, (allowedTarget db probeID r.targetID).isSome = true) (key : Int × Int) :
    findingOf (writeStates db probeID now warmedUp rs) key = foundAll db probeID now rs key := by
  unfold writeStates
  have distinct : (((rs.foldl addResult .empty).rows.map (joinStored db probeID now)).map
      BatchRow.targetID).Nodup := by
    rw [List.map_map]
    have same : BatchRow.targetID ∘ joinStored db probeID now = BatchRow.targetID :=
      funext fun row => targetID_joinStored db probeID now row
    rw [same]
    exact (rs.foldl addResult .empty).keyed
  rw [findingOf_foldl_writeState probeID now warmedUp _ distinct]
  have walked : ((rs.foldl addResult .empty).rows.map (joinStored db probeID now)).find?
      (·.targetID = key.2) = ((rs.filter (·.targetID = key.2)).foldl nextRow none).map
        (joinStored db probeID now) := by
    have same : ((fun row : BatchRow => decide (row.targetID = key.2)) ∘
        joinStored db probeID now) = fun row => decide (row.targetID = key.2) :=
      funext fun row => by rw [Function.comp_apply, targetID_joinStored]
    rw [List.find?_map, same]
    exact congrArg _ (find?_foldl_addResult rs .empty key.2)
  rw [walked, foundAll]
  cases group : allowedGroup db probeID key.2 with
  | none =>
    -- no result of such a target is in the batch
    have untouched : rs.filter (·.targetID = key.2) = [] := by
      rw [List.filter_eq_nil_iff]
      intro r listed same
      have taken := allowed r listed
      rw [of_decide_eq_true same, allowedTarget_eq, group] at taken
      cases taken
    rw [untouched]
    exact ite_self _
  | some group' =>
    dsimp only
    by_cases own : key.1 = probeID
    · rw [if_pos own, if_pos own, ← batch_of_target]
      cases folded : (rs.filter (·.targetID = key.2)).foldl nextRow none with
      | none => rfl
      | some row =>
        have named : row.targetID = key.2 := by
          have found := (find?_foldl_addResult rs .empty key.2).trans folded
          exact Table.key_of_find? found
        have joined : joinStored db probeID now row =
            row.join (allowedWith group' (findingOf db.states key)) now := by
          have pair : (probeID, key.2) = key := Prod.ext own.symm rfl
          rw [joinStored, named, allowedTarget_eq, group, pair]
          rfl
        rw [Option.map_some, joined]
    · rw [if_neg own, if_neg own]

private theorem newResults_spec (db : Base) (probeID : Int) (seen : List String)
    (rs : List DNSProbeResult) :
    (newResults db probeID seen rs).Sublist rs ∧
      ((newResults db probeID seen rs).map (·.resultID)).Nodup ∧
      ∀ r ∈ newResults db probeID seen rs,
        (probeID, r.resultID) ∉ db.inbox ∧ r.resultID ∉ seen := by
  induction rs generalizing seen with
  | nil => exact ⟨List.Sublist.refl _, List.nodup_nil, fun r member => nomatch member⟩
  | cons r rs ih =>
    unfold newResults
    split
    next known =>
      obtain ⟨part, distinct, fresh⟩ := ih seen
      exact ⟨part.cons r, distinct, fresh⟩
    next unknown =>
      obtain ⟨unstored, unseen⟩ := not_or.mp unknown
      obtain ⟨part, distinct, fresh⟩ := ih (r.resultID :: seen)
      refine ⟨part.cons_cons r, ?_, ?_⟩
      · rw [List.map_cons, List.nodup_cons]
        refine ⟨?_, distinct⟩
        intro member
        obtain ⟨other, listed, same⟩ := List.mem_map.mp member
        exact (fresh other listed).2 (same ▸ List.mem_cons_self)
      · intro other member
        rcases List.mem_cons.mp member with rfl | later
        · exact ⟨unstored, unseen⟩
        · obtain ⟨unstored', unseen'⟩ := fresh other later
          exact ⟨unstored', fun listed => unseen' (List.mem_cons_of_mem _ listed)⟩

private theorem insertInbox_new (probeID : Int) (rs : List DNSProbeResult)
    (inbox : List (Int × String)) (distinct : (rs.map (·.resultID)).Nodup)
    (fresh : ∀ r ∈ rs, (probeID, r.resultID) ∉ inbox) :
    insertInbox probeID inbox rs =
      (inbox ++ rs.map fun r => (probeID, r.resultID), rs.map (·.resultID)) := by
  induction rs generalizing inbox with
  | nil => rw [insertInbox, List.map_nil, List.map_nil, List.append_nil]
  | cons r rs ih =>
    rw [List.map_cons, List.nodup_cons] at distinct
    have later : ∀ other ∈ rs, (probeID, other.resultID) ∉ inbox ++ [(probeID, r.resultID)] := by
      intro other listed member
      rcases List.mem_append.mp member with old | new
      · exact fresh other (List.mem_cons_of_mem r listed) old
      · have same : other.resultID = r.resultID := (Prod.mk.inj (List.mem_singleton.mp new)).2
        exact distinct.1 (same ▸ List.mem_map_of_mem listed)
    rw [insertInbox, if_neg (fresh r List.mem_cons_self)]
    dsimp only
    rw [ih _ distinct.2 later, List.map_cons, List.map_cons, List.append_assoc,
      List.singleton_append]

/-- The results of a request that a report takes, when it is let in. -/
def validResults (db : Base) (probeID : Int) (results : List DNSProbeResult) :
    List DNSProbeResult :=
  (newResults db probeID [] results).filter fun r =>
    (allowedTarget db probeID r.targetID).isSome

/-- What is taken has its own ids, all of them new, and allowed targets. -/
structure Takes (db : Base) (probeID : Int) (rs : List DNSProbeResult) : Prop where
  distinct : (rs.map (·.resultID)).Nodup
  fresh : ∀ r ∈ rs, (probeID, r.resultID) ∉ db.inbox
  allowed : ∀ r ∈ rs, (allowedTarget db probeID r.targetID).isSome = true

private theorem takes_validResults (db : Base) (probeID : Int) (results : List DNSProbeResult) :
    Takes db probeID (validResults db probeID results) := by
  obtain ⟨-, distinct, fresh⟩ := newResults_spec db probeID [] results
  constructor
  case distinct => exact distinct.sublist (List.filter_sublist.map _)
  case fresh => exact fun r member => (fresh r (List.mem_filter.mp member).1).1
  case allowed => exact fun r member => (List.mem_filter.mp member).2

private theorem takenResults_eq (db : Base) (probeID : Int) (results : List DNSProbeResult) :
    takenResults db probeID results = (validResults db probeID results,
      db.inbox ++ (validResults db probeID results).map fun r => (probeID, r.resultID)) := by
  have takes := takes_validResults db probeID results
  rw [takenResults, ← validResults, insertInbox_new probeID _ _ takes.distinct takes.fresh]
  congr 1
  rw [List.filter_eq_self]
  intro r member
  exact decide_eq_true (List.mem_map_of_mem member)

private theorem validResults_single (fresh : (probeID, r.resultID) ∉ db.inbox)
    (allowed : (allowedTarget db probeID r.targetID).isSome = true) :
    validResults db probeID [r] = [r] := by
  have new : newResults db probeID [] [r] = [r] := by
    rw [newResults, if_neg (not_or.mpr ⟨fresh, List.not_mem_nil⟩), newResults]
  rw [validResults, new, List.filter_eq_self]
  intro other listed
  rw [List.mem_singleton.mp listed]
  exact allowed

private theorem reportingProbe_eq_ok {now : Int} {probe : ProbeRow} :
    reportingProbe db probeID now = .ok probe ↔ 0 < probeID ∧
      db.probes.find? probeID = some probe ∧ probe.enabled = 1 ∧
      dnsProbeHeartbeatFresh probe.lastHeartbeatAt now (dnsProbeOfflineThreshold db probeID) =
        true := by
  simp only [reportingProbe, bind_eq_ok, ensure_eq_ok, exists_const, require_eq_ok, pure_eq_ok,
    Option.filter_eq_some_iff, decide_eq_true_eq]
  constructor
  · rintro ⟨positive, other, ⟨found, enabled⟩, fresh, rfl⟩
    exact ⟨positive, found, enabled, fresh⟩
  · rintro ⟨positive, found, enabled, fresh⟩
    exact ⟨positive, probe, ⟨found, enabled⟩, fresh, rfl⟩

private structure Served (db : Base) (probeID : Int) (now : Nat) (rs : List DNSProbeResult)
    (db' : Base) : Prop where
  serves : ∃ probe, reportingProbe db' probeID now = .ok probe
  groups : ∀ targetID, allowedGroup db' probeID targetID = allowedGroup db probeID targetID
  inbox : db'.inbox = db.inbox ++ rs.map fun r => (probeID, r.resultID)
  findings : ∀ key, findingOf db'.states key = foundAll db probeID now rs key

private theorem findingOf_warmUp (probeID : Int) (states : Table StateRow.key StateRow.key)
    (key : Int × Int) : findingOf (warmUp probeID states) key = findingOf states key := by
  unfold findingOf warmUp
  rw [Table.find?_updateWhere, Option.map_map]
  congr 1
  funext s
  rw [Function.comp_apply]
  split <;> rfl

private theorem findingOf_warmed (c : Prop) [Decidable c] (probeID : Int)
    (states : Table StateRow.key StateRow.key) (key : Int × Int) :
    findingOf (if c then warmUp probeID states else states) key = findingOf states key := by
  split
  · exact findingOf_warmUp probeID states key
  · rfl

private theorem reported_served {probe : ProbeRow}
    (serves : reportingProbe db probeID now = .ok probe) (results : List DNSProbeResult) :
    Served db probeID now (validResults db probeID results) (reported db probeID now results) := by
  have takes := takes_validResults db probeID results
  obtain ⟨positive, found, enabled, fresh⟩ := reportingProbe_eq_ok.mp serves
  unfold reported reportDNSFailoverProbeResults
  rw [serves, bind_ok, takenResults_eq]
  dsimp only [pure, Except.pure]
  constructor
  case serves =>
    by_cases advances : validResults db probeID results ≠ [] ∧ clampPrewarm probe.prewarmCount < 3
    · refine ⟨{ probe with prewarmCount := clampPrewarm probe.prewarmCount + 1 }, ?_⟩
      refine reportingProbe_eq_ok.mpr ⟨positive, ?_, enabled, fresh⟩
      have named : probe.id = probeID := Table.key_of_find? found
      simp only [decide_eq_true advances, if_true, Table.find?_updateWhere, found, Option.map_some,
        named, decide_true]
    · refine ⟨probe, reportingProbe_eq_ok.mpr ⟨positive, ?_, enabled, fresh⟩⟩
      simp only [decide_eq_false advances, Bool.false_eq_true, if_false, found]
  case groups => exact fun _ => rfl
  case inbox => rfl
  case findings =>
    intro key
    dsimp only
    rw [findingOf_warmed, findingOf_writeStates _ _ _ _ takes.allowed]

private theorem foundAll_cons {db' : Base} (served : Served db probeID now [r] db')
    (rs : List DNSProbeResult) (key : Int × Int) :
    foundAll db' probeID now rs key = foundAll db probeID now (r :: rs) key := by
  have before := served.findings key
  unfold foundAll at *
  rw [served.groups]
  cases group : allowedGroup db probeID key.2 with
  | none =>
    rw [group] at before
    exact before
  | some group' =>
    rw [group] at before
    dsimp only at before ⊢
    split
    next own =>
      rw [if_pos own] at before
      rw [before]
      by_cases same : r.targetID = key.2
      · simp [same]
      · simp [same]
    next other =>
      rw [if_neg other] at before
      exact before

private theorem findingOf_singly (serves : ∃ probe, reportingProbe db probeID now = .ok probe)
    (takes : Takes db probeID rs) (key : Int × Int) :
    findingOf (rs.foldl (fun d r => reported d probeID now [r]) db).states key =
      foundAll db probeID now rs key := by
  induction rs generalizing db with
  | nil =>
    unfold foundAll
    split
    · exact (ite_self _).symm
    · rfl
  | cons r rs ih =>
    obtain ⟨probe, allowedIn⟩ := serves
    have fresh := takes.fresh r List.mem_cons_self
    have allowed := takes.allowed r List.mem_cons_self
    have served := reported_served allowedIn [r]
    rw [validResults_single fresh allowed] at served
    obtain ⟨own, distinct⟩ := List.nodup_cons.mp takes.distinct
    have rest : Takes (reported db probeID now [r]) probeID rs := by
      constructor
      case distinct => exact distinct
      case fresh =>
        intro other listed member
        rw [served.inbox] at member
        rcases List.mem_append.mp member with old | new
        · exact takes.fresh other (List.mem_cons_of_mem r listed) old
        · have same : other.resultID = r.resultID :=
            (Prod.mk.inj (List.mem_singleton.mp new)).2
          exact own (List.mem_map.mpr ⟨other, listed, same⟩)
      case allowed =>
        intro other listed
        have before := takes.allowed other (List.mem_cons_of_mem r listed)
        rw [allowedTarget_eq, Option.isSome_map] at before ⊢
        rw [served.groups]
        exact before
    rw [List.foldl_cons, ih served.serves rest, foundAll_cons served]

private theorem one_streak_foundNext (group : GroupRow) (now : Int) (found : Option Finding)
    (r : DNSProbeResult) :
    ∃ f, foundNext group now found r = some f ∧
      (f.consecutiveSuccess = 0 ∨ f.consecutiveFailure = 0) := by
  refine ⟨_, rfl, ?_⟩
  unfold BatchRow.finding BatchRow.join
  dsimp only
  split
  · -- the streak starts anew
    unfold BatchRow.start dnsProbeStateWriteValues
    dsimp only
    split
    · exact .inr rfl
    · exact .inl rfl
  · split
    · exact .inr rfl
    · exact .inl rfl

private theorem one_streak_foundAll (now : Int) (member : r ∈ rs)
    (allowed : (allowedTarget db probeID r.targetID).isSome = true) :
    ∃ f, foundAll db probeID now rs (probeID, r.targetID) = some f ∧
      (f.consecutiveSuccess = 0 ∨ f.consecutiveFailure = 0) := by
  rw [allowedTarget_eq, Option.isSome_map] at allowed
  obtain ⟨group, stored⟩ := Option.isSome_iff_exists.mp allowed
  unfold foundAll
  simp only [stored, if_true]
  have listed : r ∈ rs.filter (·.targetID = r.targetID) :=
    List.mem_filter.mpr ⟨member, decide_eq_true rfl⟩
  rcases List.eq_nil_or_concat (rs.filter (·.targetID = r.targetID))
    with none' | ⟨before, last, all⟩
  · rw [none'] at listed
    exact nomatch listed
  · -- the last result of the target decides
    rw [all, List.concat_eq_append, List.foldl_append]
    exact one_streak_foundNext group now _ last

end ForestPanel.DNSFailover
