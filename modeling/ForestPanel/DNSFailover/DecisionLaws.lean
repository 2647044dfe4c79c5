import ForestPanel.DNSFailover.Decision

/-!
# What the DNS failover decides

The specification speaks of the probes that are heard: those that are online and have a fresh
state of the current target. A failover needs all of them to have lost the current target and
to have found another; a failback is to a target that comes before the current one.
-/
namespace ForestPanel.DNSFailover

open FirstMatch Relational

namespace DecisionInput

variable (input : DecisionInput)

/-- An online probe with a fresh state of the current target. -/
def Heard (p : ProbeSnapshot) : Prop :=
  p ∈ input.probes ∧ p.online = true ∧
    ∃ s ∈ input.states, s.probeID = p.id ∧ s.targetID = input.currentTargetID

structure Ready : Prop where
  online : ∃ p ∈ input.probes, p.online = true
  settled : ∀ last, input.lastSwitchAt = some last → input.cooldown ≤ 0 ∨
    last + input.cooldown ≤ input.now
  heard : ∃ p, input.Heard p

def Sole : Prop := ∃ p, input.Heard p ∧ ∀ q, input.Heard q → q = p

/-- On a target the streak of every probe that is heard has reached the threshold. -/
def Agreed (streak : ProbeTargetSnapshot → Int) (targetID threshold : Int) : Prop :=
  ∀ p, input.Heard p →
    ∃ s ∈ input.states, s.probeID = p.id ∧ s.targetID = targetID ∧ threshold ≤ streak s

def Failed : Prop :=
  (input.Sole →
    input.Agreed (·.failureStreak) input.currentTargetID input.singleProbeFailureThreshold) ∧
  (¬input.Sole → input.Agreed (·.failureStreak) input.currentTargetID input.failureThreshold)

def Healthy (t : TargetSnapshot) : Prop :=
  t ∈ input.targets ∧ t.enabled = true ∧
    (input.Sole → input.Agreed (·.successStreak) t.id input.singleProbeSuccessThreshold) ∧
    (¬input.Sole → input.Agreed (·.successStreak) t.id input.successThreshold)

def Another (t : TargetSnapshot) : Prop := input.Healthy t ∧ t.id ≠ input.currentTargetID

def Earlier (t : TargetSnapshot) : Prop :=
  input.Healthy t ∧
    ∃ current ∈ input.targets, current.id = input.currentTargetID ∧ t.sort < current.sort

structure Reordering where
  targets : TargetSnapshots
  probes : ProbeSnapshots
  states : StateSnapshots
  sameTargets : targets.rows.Perm input.targets.rows
  sameProbes : probes.rows.Perm input.probes.rows
  sameStates : states.rows.Perm input.states.rows

def Reordering.applied {input : DecisionInput} (r : input.Reordering) : DecisionInput :=
  { input with
    targets := r.targets
    probes := r.probes
    states := r.states }

end DecisionInput

/-- No target with the property precedes this one by `(sort, id)`. -/
def Least (P : TargetSnapshot → Prop) (t : TargetSnapshot) : Prop :=
  P t ∧ ∀ t', P t' → ByKeys TargetSnapshot.sort TargetSnapshot.id t t'

namespace DecisionInput

variable {input : DecisionInput}

private theorem mem_availableProbeIDs {id : Int} :
    id ∈ input.availableProbeIDs ↔ ∃ p, input.Heard p ∧ p.id = id := by
  simp only [availableProbeIDs, List.mem_map, List.mem_filter, Bool.and_eq_true, List.any_eq_true,
    decide_eq_true_eq]
  constructor
  · rintro ⟨p, ⟨member, online, s, stored, current, own⟩, same⟩
    exact ⟨p, ⟨member, online, s, stored, own, current⟩, same⟩
  · rintro ⟨p, ⟨member, online, s, stored, own, current⟩, same⟩
    exact ⟨p, ⟨member, online, s, stored, current, own⟩, same⟩

private theorem availableProbeIDs_nodup : input.availableProbeIDs.Nodup :=
  input.probes.keyed.sublist (List.filter_sublist.map _)

private theorem Heard.eq_of_id {p q : ProbeSnapshot} (heard : input.Heard p)
    (other : input.Heard q) (same : p.id = q.id) : p = q :=
  input.probes.eq_of_key heard.1 other.1 same

private theorem sole_iff : input.availableProbeIDs.length = 1 ↔ input.Sole := by
  constructor
  · intro one
    obtain ⟨id, only⟩ := List.length_eq_one_iff.mp one
    have listed : ∀ q, input.Heard q → q.id = id := by
      intro q heard
      have member := mem_availableProbeIDs.mpr ⟨q, heard, rfl⟩
      rw [only] at member
      exact List.mem_singleton.mp member
    have member : id ∈ input.availableProbeIDs := by
      rw [only]
      exact List.mem_singleton_self id
    obtain ⟨p, heard, rfl⟩ := mem_availableProbeIDs.mp member
    exact ⟨p, heard, fun q other => other.eq_of_id heard (listed q other)⟩
  · rintro ⟨p, heard, only⟩
    have member := mem_availableProbeIDs.mpr ⟨p, heard, rfl⟩
    have all : ∀ id ∈ input.availableProbeIDs, id = p.id := by
      intro id listed
      obtain ⟨q, other, rfl⟩ := mem_availableProbeIDs.mp listed
      rw [only q other]
    have distinct : input.availableProbeIDs.Nodup := availableProbeIDs_nodup
    cases listed : input.availableProbeIDs with
    | nil =>
      rw [listed] at member
      cases member
    | cons a rest =>
      cases rest with
      | nil => rfl
      | cons b rest =>
        rw [listed] at all distinct
        have first := all a List.mem_cons_self
        have second := all b (List.mem_cons_of_mem a List.mem_cons_self)
        exact absurd (first.trans second.symm)
          (List.ne_of_not_mem_cons (List.nodup_cons.mp distinct).1)

private theorem allMeet_iff {streak : ProbeTargetSnapshot → Int} {targetID threshold : Int} :
    input.allMeet streak targetID threshold = true ↔ input.Agreed streak targetID threshold := by
  simp only [allMeet, List.all_eq_true, Option.any_eq_true, decide_eq_true_eq,
    Table.find?_eq_some, ProbeTargetSnapshot.key, Prod.mk.injEq]
  constructor
  · intro all p heard
    obtain ⟨s, ⟨stored, own, target⟩, reached⟩ :=
      all p.id (mem_availableProbeIDs.mpr ⟨p, heard, rfl⟩)
    exact ⟨s, stored, own, target, reached⟩
  · intro agreed id listed
    obtain ⟨p, heard, rfl⟩ := mem_availableProbeIDs.mp listed
    obtain ⟨s, stored, own, target, reached⟩ := agreed p heard
    exact ⟨s, ⟨stored, own, target⟩, reached⟩

private theorem currentFailed_iff : input.currentFailed = true ↔ input.Failed := by
  rw [currentFailed, allMeet_iff, failureLimit, Failed]
  by_cases sole : input.Sole
  · rw [if_pos (sole_iff.mpr sole)]
    exact ⟨fun agreed => ⟨fun _ => agreed, fun several => absurd sole several⟩,
      fun both => both.1 sole⟩
  · rw [if_neg (mt sole_iff.mp sole)]
    exact ⟨fun agreed => ⟨fun alone => absurd alone sole, fun _ => agreed⟩,
      fun both => both.2 sole⟩

private theorem healthy_iff {t : TargetSnapshot} (member : t ∈ input.targets) :
    input.healthy t = true ↔ input.Healthy t := by
  rw [healthy, Bool.and_eq_true, allMeet_iff, successLimit, Healthy]
  by_cases sole : input.Sole
  · rw [if_pos (sole_iff.mpr sole)]
    constructor
    · rintro ⟨enabled, agreed⟩
      exact ⟨member, enabled, fun _ => agreed, fun several => absurd sole several⟩
    · rintro ⟨-, enabled, alone, -⟩
      exact ⟨enabled, alone sole⟩
  · rw [if_neg (mt sole_iff.mp sole)]
    constructor
    · rintro ⟨enabled, agreed⟩
      exact ⟨member, enabled, fun alone => absurd alone sole, fun _ => agreed⟩
    · rintro ⟨-, enabled, -, several⟩
      exact ⟨enabled, several sole⟩

private theorem ready_iff : input.Ready ↔
    input.anyOnline = true ∧ input.coolingDown = false ∧ input.availableProbeIDs ≠ [] := by
  have online : input.anyOnline = true ↔ ∃ p ∈ input.probes, p.online = true := by
    rw [anyOnline, List.any_eq_true]
    rfl
  have settled : input.coolingDown = false ↔ ∀ last, input.lastSwitchAt = some last →
      input.cooldown ≤ 0 ∨ last + input.cooldown ≤ input.now := by
    rw [coolingDown, ← Bool.not_eq_true, Option.any_eq_true]
    simp only [not_exists, not_and, Bool.and_eq_true, decide_eq_true_eq, not_lt]
    constructor
    · intro calm last switched
      have ended := calm last switched
      omega
    · intro calm last switched
      have ended := calm last switched
      omega
  have heard : input.availableProbeIDs ≠ [] ↔ ∃ p, input.Heard p := by
    constructor
    · intro some_
      obtain ⟨id, listed⟩ := List.exists_mem_of_ne_nil _ some_
      obtain ⟨p, heard, -⟩ := mem_availableProbeIDs.mp listed
      exact ⟨p, heard⟩
    · rintro ⟨p, heard⟩
      exact List.ne_nil_of_mem (mem_availableProbeIDs.mpr ⟨p, heard, rfl⟩)
  rw [online, settled, heard]
  exact ⟨fun ready => ⟨ready.online, ready.settled, ready.heard⟩,
    fun ⟨online, settled, heard⟩ => ⟨online, settled, heard⟩⟩

private theorem targets_apart : ∀ a ∈ input.targets.rows, ∀ b ∈ input.targets.rows,
    a.id = b.id → a = b :=
  fun _ member _ member' => input.targets.eq_of_key member member'

private theorem failoverTarget_eq_some {t : TargetSnapshot} :
    input.failoverTarget = some t ↔ Least input.Another t := by
  have another : ∀ t ∈ input.targets.rows,
      ((decide (t.id ≠ input.currentTargetID) && input.healthy t) = true ↔ input.Another t) := by
    intro t member
    rw [Bool.and_eq_true, decide_eq_true_eq, healthy_iff member]
    exact and_comm
  rw [failoverTarget, sortedTargets, find?_insertionSort_eq_some targets_apart]
  constructor
  · rintro ⟨member, holds, least⟩
    refine ⟨(another t member).mp holds, fun t' other => ?_⟩
    exact least t' other.1.1 ((another t' other.1.1).mpr other)
  · rintro ⟨holds, least⟩
    refine ⟨holds.1.1, (another t holds.1.1).mpr holds, fun t' member other => ?_⟩
    exact least t' ((another t' member).mp other)

private theorem failbackTarget_eq_some {t : TargetSnapshot} :
    input.failbackTarget = some t ↔ Least input.Earlier t := by
  unfold failbackTarget
  cases found : input.sortedTargets.find? (·.id = input.currentTargetID) with
  | none =>
    have absent : ∀ c ∈ input.targets.rows, c.id ≠ input.currentTargetID := by
      intro c member
      have listed := (List.perm_insertionSort (ByKeys TargetSnapshot.sort TargetSnapshot.id)
        input.targets.rows).symm.subset member
      simpa using List.find?_eq_none.mp found c listed
    constructor
    · exact fun none_ => nomatch none_
    · rintro ⟨⟨-, c, member, same, -⟩, -⟩
      exact absurd same (absent c member)
  | some c =>
    obtain ⟨member, same, -⟩ := (find?_insertionSort_eq_some targets_apart).mp found
    have current : ∀ c' ∈ input.targets, c'.id = input.currentTargetID → c' = c := by
      intro c' stored own
      exact input.targets.eq_of_key stored member (own.trans (of_decide_eq_true same).symm)
    have earlier : ∀ t ∈ input.targets.rows,
        ((decide (t.sort < c.sort) && input.healthy t) = true ↔ input.Earlier t) := by
      intro t listed
      rw [Bool.and_eq_true, decide_eq_true_eq, healthy_iff listed]
      constructor
      · rintro ⟨before, healthy⟩
        exact ⟨healthy, c, member, of_decide_eq_true same, before⟩
      · rintro ⟨healthy, c', stored, own, before⟩
        obtain rfl := current c' stored own
        exact ⟨before, healthy⟩
    have closed : ∀ a b, ByKeys TargetSnapshot.sort TargetSnapshot.id a b →
        decide (b.sort < c.sort) = true → decide (a.sort < c.sort) = true := by
      intro a b before holds
      unfold ByKeys at before
      rw [decide_eq_true_eq] at holds ⊢
      omega
    dsimp only
    rw [sortedTargets, find?_takeWhile (List.pairwise_insertionSort _ input.targets.rows) closed,
      find?_insertionSort_eq_some targets_apart]
    constructor
    · rintro ⟨listed, holds, least⟩
      refine ⟨(earlier t listed).mp holds, fun t' other => ?_⟩
      exact least t' other.1.1 ((earlier t' other.1.1).mpr other)
    · rintro ⟨holds, least⟩
      refine ⟨holds.1.1, (earlier t holds.1.1).mpr holds, fun t' listed other => ?_⟩
      exact least t' ((earlier t' listed).mp other)

private theorem decide_of_not_ready (idle : ¬input.Ready) :
    (decideDNSFailover input).action = .none := by
  rw [ready_iff] at idle
  unfold decideDNSFailover
  split
  · rfl
  next online =>
    split
    · rfl
    next settled =>
      split
      · rfl
      next heard =>
        rw [Bool.not_eq_false] at online
        rw [Bool.not_eq_true] at settled
        exact absurd ⟨online, settled, heard⟩ idle

private theorem decide_of_ready (ready : input.Ready) : decideDNSFailover input =
    if input.currentFailed then
      match input.failoverTarget with
      | some t => ⟨.failover, t.id, .currentFailed⟩
      | none => ⟨.none, 0, .noHealthyTarget⟩
    else
      match if input.autoFailback then input.failbackTarget else none with
      | some t => ⟨.failback, t.id, .higherPriorityRecovered⟩
      | none => ⟨.none, 0, input.holdReason⟩ := by
  obtain ⟨online, settled, heard⟩ := ready_iff.mp ready
  unfold decideDNSFailover
  refine (if_neg (by simp [online])).trans ?_
  refine (if_neg (by simp [settled])).trans ?_
  exact if_neg heard

private theorem failover_iff (id : Int) :
    ((decideDNSFailover input).action = .failover ∧ (decideDNSFailover input).targetID = id) ↔
      input.Ready ∧ input.Failed ∧ ∃ t, t.id = id ∧ Least input.Another t := by
  by_cases ready : input.Ready
  · rw [decide_of_ready ready]
    cases failed : input.currentFailed with
    | true =>
      have lost := currentFailed_iff.mp failed
      cases found : input.failoverTarget with
      | none =>
        constructor
        · exact fun moved => nomatch moved.1
        · rintro ⟨-, -, t, -, least⟩
          rw [failoverTarget_eq_some.mpr least] at found
          cases found
      | some t =>
        constructor
        · rintro ⟨-, same⟩
          exact ⟨ready, lost, t, same, failoverTarget_eq_some.mp found⟩
        · rintro ⟨-, -, t', same, least⟩
          rw [failoverTarget_eq_some.mpr least] at found
          obtain rfl := Option.some.inj found
          exact ⟨rfl, same⟩
    | false =>
      have kept : ¬input.Failed := by
        rw [← currentFailed_iff, failed]
        exact Bool.false_ne_true
      rw [if_neg Bool.false_ne_true]
      constructor
      · intro moved
        split at moved <;> cases moved.1
      · exact fun moved => absurd moved.2.1 kept
  · constructor
    · intro moved
      rw [decide_of_not_ready ready] at moved
      cases moved.1
    · exact fun moved => absurd moved.1 ready

private theorem failback_iff (id : Int) :
    ((decideDNSFailover input).action = .failback ∧ (decideDNSFailover input).targetID = id) ↔
      input.Ready ∧ ¬input.Failed ∧ input.autoFailback = true ∧
        ∃ t, t.id = id ∧ Least input.Earlier t := by
  by_cases ready : input.Ready
  · rw [decide_of_ready ready]
    cases failed : input.currentFailed with
    | true =>
      have lost := currentFailed_iff.mp failed
      rw [if_pos rfl]
      constructor
      · intro moved
        split at moved <;> cases moved.1
      · exact fun moved => absurd lost moved.2.1
    | false =>
      have kept : ¬input.Failed := by
        rw [← currentFailed_iff, failed]
        exact Bool.false_ne_true
      rw [if_neg Bool.false_ne_true]
      cases auto : input.autoFailback with
      | false =>
        constructor
        · exact fun moved => nomatch moved.1
        · exact fun moved => nomatch moved.2.2.1
      | true =>
        rw [if_pos rfl]
        cases found : input.failbackTarget with
        | none =>
          constructor
          · exact fun moved => nomatch moved.1
          · rintro ⟨-, -, -, t, -, least⟩
            rw [failbackTarget_eq_some.mpr least] at found
            cases found
        | some t =>
          constructor
          · rintro ⟨-, same⟩
            exact ⟨ready, kept, rfl, t, same, failbackTarget_eq_some.mp found⟩
          · rintro ⟨-, -, -, t', same, least⟩
            rw [failbackTarget_eq_some.mpr least] at found
            obtain rfl := Option.some.inj found
            exact ⟨rfl, same⟩
  · constructor
    · intro moved
      rw [decide_of_not_ready ready] at moved
      cases moved.1
    · exact fun moved => absurd moved.1 ready

private theorem exists_least (some_ : ∃ t, input.Another t) : ∃ t, Least input.Another t := by
  obtain ⟨t, healthy, other⟩ := some_
  cases found : input.failoverTarget with
  | some t' => exact ⟨t', failoverTarget_eq_some.mp found⟩
  | none =>
    have listed := (List.perm_insertionSort (ByKeys TargetSnapshot.sort TargetSnapshot.id)
      input.targets.rows).symm.subset healthy.1
    have fails := List.find?_eq_none.mp found t listed
    rw [Bool.and_eq_true, decide_eq_true_eq, healthy_iff healthy.1] at fails
    exact absurd ⟨other, healthy⟩ fails

private theorem ready_of_switch (moved : (decideDNSFailover input).action ≠ .none) :
    input.Ready := by
  by_contra idle
  exact moved (decide_of_not_ready idle)

section Reordered

variable (r : input.Reordering)

private theorem find?_applied (key : Int × Int) :
    r.applied.states.find? key = input.states.find? key :=
  Table.find?_of_perm r.sameStates key

private theorem available_applied :
    r.applied.availableProbeIDs.Perm input.availableProbeIDs := by
  have same : ∀ p : ProbeSnapshot,
      (p.online && r.states.rows.any fun s =>
        s.targetID = input.currentTargetID && s.probeID = p.id) =
      (p.online && input.states.rows.any fun s =>
        s.targetID = input.currentTargetID && s.probeID = p.id) := by
    intro p
    rw [r.sameStates.any_eq]
  unfold availableProbeIDs
  refine List.Perm.map _ ?_
  have filtered := r.sameProbes.filter fun p => p.online && input.states.rows.any fun s =>
    s.targetID = input.currentTargetID && s.probeID = p.id
  refine List.Perm.trans (List.Perm.of_eq ?_) filtered
  exact List.filter_congr fun p _ => same p

private theorem anyOnline_applied : r.applied.anyOnline = input.anyOnline :=
  r.sameProbes.any_eq

private theorem sortedTargets_applied : r.applied.sortedTargets = input.sortedTargets :=
  insertionSort_eq_of_perm r.sameTargets (@targets_apart r.applied)

private theorem failureLimit_applied : r.applied.failureLimit = input.failureLimit := by
  rw [failureLimit, failureLimit, (available_applied r).length_eq]
  rfl

private theorem successLimit_applied : r.applied.successLimit = input.successLimit := by
  rw [successLimit, successLimit, (available_applied r).length_eq]
  rfl

private theorem allMeet_applied (streak : ProbeTargetSnapshot → Int) (targetID threshold : Int) :
    r.applied.allMeet streak targetID threshold = input.allMeet streak targetID threshold := by
  rw [allMeet, allMeet, (available_applied r).all_eq]
  simp only [find?_applied]

private theorem anyMeet_applied (targetID threshold : Int) :
    r.applied.anyMeet targetID threshold = input.anyMeet targetID threshold := by
  rw [anyMeet, anyMeet, (available_applied r).any_eq]
  simp only [find?_applied]

private theorem currentFailed_applied : r.applied.currentFailed = input.currentFailed := by
  rw [currentFailed, currentFailed, allMeet_applied, failureLimit_applied]
  rfl

private theorem healthy_applied : r.applied.healthy = input.healthy := by
  funext t
  rw [healthy, healthy, allMeet_applied, successLimit_applied]

private theorem currentTargetID_applied : r.applied.currentTargetID = input.currentTargetID := rfl

private theorem holdReason_applied : r.applied.holdReason = input.holdReason := by
  have heard : (r.applied.availableProbeIDs.filterMap fun probeID =>
      r.applied.states.find? (probeID, input.currentTargetID)).Perm
        (input.availableProbeIDs.filterMap fun probeID =>
          input.states.find? (probeID, input.currentTargetID)) := by
    simp only [find?_applied]
    exact (available_applied r).filterMap _
  have empty := heard.length_eq
  have failing := fun s => heard.mem_iff (a := s)
  simp only [holdReason, (available_applied r).length_eq, anyMeet_applied, failureLimit_applied,
    currentTargetID_applied, ← List.length_eq_zero_iff, empty, failing]

private theorem failoverTarget_applied : r.applied.failoverTarget = input.failoverTarget := by
  rw [failoverTarget, failoverTarget, sortedTargets_applied, healthy_applied]
  rfl

private theorem failbackTarget_applied : r.applied.failbackTarget = input.failbackTarget := by
  rw [failbackTarget, failbackTarget, sortedTargets_applied, healthy_applied]
  rfl

private theorem decide_applied : decideDNSFailover r.applied = decideDNSFailover input := by
  have available : r.applied.availableProbeIDs = [] ↔ input.availableProbeIDs = [] := by
    rw [← List.length_eq_zero_iff, (available_applied r).length_eq, List.length_eq_zero_iff]
  simp only [decideDNSFailover, anyOnline_applied, available, currentFailed_applied,
    failoverTarget_applied, failbackTarget_applied, holdReason_applied]
  rfl

end Reordered

end DecisionInput

/-- The decision meets its specification: a switch needs a group that is ready; a failover
needs the current target to have failed on all probes and goes to the least other target that
works on all of them; a failback needs it to be automatic and goes to the least such target
that comes before the current one; and the order of the snapshots does not matter. -/
theorem decision_specified (input : DecisionInput) :
    ((decideDNSFailover input).action ≠ .none → input.Ready) ∧
    ((decideDNSFailover input).action = .failover ↔
      input.Ready ∧ input.Failed ∧ ∃ t, input.Another t) ∧
    (∀ id, ((decideDNSFailover input).action = .failover ∧
        (decideDNSFailover input).targetID = id) ↔
      input.Ready ∧ input.Failed ∧ ∃ t, t.id = id ∧ Least input.Another t) ∧
    (∀ id, ((decideDNSFailover input).action = .failback ∧
        (decideDNSFailover input).targetID = id) ↔
      input.Ready ∧ ¬input.Failed ∧ input.autoFailback = true ∧
        ∃ t, t.id = id ∧ Least input.Earlier t) ∧
    ∀ r : input.Reordering, decideDNSFailover r.applied = decideDNSFailover input := by
  refine ⟨DecisionInput.ready_of_switch, ?_, DecisionInput.failover_iff,
    DecisionInput.failback_iff, DecisionInput.decide_applied⟩
  constructor
  · intro moved
    obtain ⟨ready, failed, t, -, least⟩ := (DecisionInput.failover_iff _).mp ⟨moved, rfl⟩
    exact ⟨ready, failed, t, least.1⟩
  · rintro ⟨ready, failed, another⟩
    obtain ⟨t, least⟩ := DecisionInput.exists_least another
    exact ((DecisionInput.failover_iff t.id).mpr ⟨ready, failed, t, rfl, least⟩).1

end ForestPanel.DNSFailover
