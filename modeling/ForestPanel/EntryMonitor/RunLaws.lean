import ForestPanel.EntryMonitor.Runs
import Mathlib.Data.List.ProdSigma

/-!
# What manual runs keep

Only the holder of a row changes a run, and only a start makes one. The invariant says of
every committed run that its counter is that of its results, and that these are the pairs of
its snapshot that were taken in for it; of the open start and the open report it says what
they have written and locked.
-/
namespace ForestPanel.EntryMonitor.Runs

open List Relational ClientEntry Transition

def RunPair.entry (p : RunPair) (runID : Int) : Reported :=
  ⟨runID, p.targetID, p.probeID, p.targetVersion⟩

section Pairs

variable {db : MonitorBase}

private theorem nodup_filterMap_of_key {α β κ : Type} {f : α → Option β} {key : α → κ}
    {key' : β → κ} {l : List α} (distinct : (l.map key).Nodup)
    (same : ∀ a b, f a = some b → key' b = key a) : ((l.filterMap f).map key').Nodup := by
  induction l with
  | nil => exact List.nodup_nil
  | cons a l ih =>
    rw [List.map_cons, List.nodup_cons] at distinct
    obtain ⟨fresh, rest⟩ := distinct
    cases found : f a with
    | none =>
      rw [List.filterMap_cons_none found]
      exact ih rest
    | some b =>
      rw [List.filterMap_cons_some found, List.map_cons, List.nodup_cons]
      refine ⟨?_, ih rest⟩
      intro member
      obtain ⟨b', listed, equal⟩ := List.mem_map.mp member
      obtain ⟨a', inside, from'⟩ := List.mem_filterMap.mp listed
      rw [same a b found, same a' b' from'] at equal
      exact fresh (equal ▸ List.mem_map_of_mem inside)

theorem watchedTargets_nodup (db : MonitorBase) :
    ((watchedTargets db).map (·.1.id)).Nodup := by
  have sorted : ((db.targets.rows.mergeSort (·.id ≤ ·.id)).map Target.id).Nodup :=
    ((List.mergeSort_perm _ _).map _).nodup_iff.mpr db.targets.keyed
  refine nodup_filterMap_of_key sorted ?_
  intro t row found
  obtain ⟨mp, -, rfl⟩ := Option.map_eq_some_iff.mp found
  rfl

theorem enabledProbes_nodup (db : MonitorBase) : ((enabledProbes db).map Probe.id).Nodup := by
  have filtered : ((db.probes.rows.filter (·.enabled = 1)).map Probe.id).Nodup :=
    db.probes.keyed.sublist (List.filter_sublist.map _)
  exact ((List.mergeSort_perm _ _).map _).nodup_iff.mpr filtered

theorem runPairs_nodup {targets : List (Target × Monitor × PolicyRow)} {probes : List Probe}
    (targetIDs : (targets.map (·.1.id)).Nodup) (probeIDs : (probes.map Probe.id).Nodup) :
    ((runPairs targets probes).map RunPair.unit).Nodup := by
  have units : (runPairs targets probes).map RunPair.unit =
      (targets.map (·.1.id)) ×ˢ (probes.map Probe.id) := by
    unfold runPairs
    rw [List.map_flatMap]
    induction targets with
    | nil => rfl
    | cons t targets ih =>
      rw [List.map_cons, List.nodup_cons] at targetIDs
      rw [List.flatMap_cons, ih targetIDs.2, List.map_cons, List.product_cons, List.map_map,
        List.map_map]
      rfl
  rw [units]
  exact targetIDs.product probeIDs

theorem policyPairs_nodup (db : MonitorBase) (policyIDs : List Int) :
    ((policyPairs db policyIDs).map RunPair.unit).Nodup :=
  runPairs_nodup ((watchedTargets_nodup db).sublist (List.filter_sublist.map _))
    (enabledProbes_nodup db)

theorem captured_nodup {selection : AIEntryProbeSelection} {agrees : Bool} {policyIDs : List Int}
    {pairs : List RunPair}
    (captured : captureAIEntryProbeSelection db selection agrees = .ok (policyIDs, pairs)) :
    (pairs.map RunPair.unit).Nodup := by
  unfold captureAIEntryProbeSelection at captured
  dsimp only at captured
  split_ifs at captured
  obtain ⟨-, rfl⟩ := Prod.mk.inj (Except.ok.inj captured)
  apply runPairs_nodup
  · exact (watchedTargets_nodup db).sublist
      (((List.take_sublist _ _).trans List.filter_sublist).map _)
  · exact (enabledProbes_nodup db).sublist
      (((List.take_sublist _ _).trans List.filter_sublist).map _)

end Pairs

/-- The results of a run are those of its pairs that were taken in for it. -/
structure Counted (results : List RunResult) (reported : List Reported) (r : Run) : Prop where
  counted : ∀ x ∈ results, x.runID = r.id →
    ∃ p ∈ r.expectedPairs, p.unit = x.unit ∧ p.entry r.id ∈ reported
  complete : ∀ p ∈ r.expectedPairs, p.entry r.id ∈ reported →
    ∃ x ∈ results, x.runID = r.id ∧ x.unit = p.unit

structure Run.Stands (results : List RunResult) (reported : List Reported) (r : Run) : Prop where
  expected : r.expectedResults = r.expectedPairs.length
  distinct : (r.expectedPairs.map RunPair.unit).Nodup
  received : r.receivedResults = countResults results r.id
  pairs : Counted results reported r
  open_ : r.status ≠ .completed → r.receivedResults < r.expectedResults
  completed : r.status = .completed → r.receivedResults = r.expectedResults

/-- The pairs of a run that were taken in for it. -/
def Run.taken (reported : List Reported) (r : Run) : List RunPair :=
  r.expectedPairs.filter fun p => p.entry r.id ∈ reported

variable {r : Run} {t : Taking}

theorem Counted.count {results : List RunResult} {reported : List Reported}
    (pairs : Counted results reported r) (distinct : (r.expectedPairs.map RunPair.unit).Nodup)
    (keys : (results.map RunResult.key).Nodup) :
    countResults results r.id = (r.taken reported).length := by
  have own : ((results.filter (·.runID = r.id)).map RunResult.unit).Nodup := by
    have filtered : ((results.filter (·.runID = r.id)).map RunResult.key).Nodup :=
      keys.sublist (List.filter_sublist.map _)
    refine List.Nodup.of_map (Prod.mk r.id) ?_
    rw [List.map_map]
    refine (List.map_congr_left ?_) ▸ filtered
    intro x member
    have same : x.runID = r.id := of_decide_eq_true (List.mem_filter.mp member).2
    rw [Function.comp_apply, RunResult.key, same]
  have units : ((r.taken reported).map RunPair.unit).Nodup :=
    distinct.sublist (List.filter_sublist.map _)
  have same : (results.filter (·.runID = r.id)).map RunResult.unit ~
      (r.taken reported).map RunPair.unit := by
    rw [List.perm_ext_iff_of_nodup own units]
    intro u
    simp only [List.mem_map, List.mem_filter, Run.taken, decide_eq_true_eq]
    constructor
    · rintro ⟨x, ⟨member, mine⟩, rfl⟩
      obtain ⟨p, listed, unit, entry⟩ := pairs.counted x member mine
      exact ⟨p, ⟨listed, entry⟩, unit⟩
    · rintro ⟨p, ⟨listed, entry⟩, rfl⟩
      obtain ⟨x, member, mine, unit⟩ := pairs.complete p listed entry
      exact ⟨x, ⟨member, mine⟩, unit⟩
  have lengths := same.length_eq
  rw [List.length_map, List.length_map] at lengths
  rw [countResults, List.countP_eq_length_filter, lengths]

theorem Counted.count_le {results : List RunResult} {reported : List Reported}
    (pairs : Counted results reported r) (distinct : (r.expectedPairs.map RunPair.unit).Nodup)
    (keys : (results.map RunResult.key).Nodup) :
    countResults results r.id ≤ r.expectedPairs.length := by
  rw [pairs.count distinct keys]
  exact List.length_filter_le _ _

/-- No run is running but those the start has set to timeout. -/
def StartPhase.clear : StartPhase → Bool
  | .available | .tasks _ | .insert .. | .commit _ => true
  | .lookup | .expire | .active => false

structure Starting.Stands (w : World) (s : Starting) : Prop where
  expired : ∀ id ∈ s.expired, ∃ r ∈ w.runs, r.id = id ∧ r.status = .running
  clear : s.phase.clear = true → ∀ r ∈ w.runs, r.status = .running → r.id ∈ s.expired
  pairs : ∀ policyIDs pairs, s.phase = .insert policyIDs pairs →
    (pairs.map RunPair.unit).Nodup
  built : ∀ run, s.phase = .commit run → run.id < w.nextRunID ∧
    (∀ x ∈ w.results, x.runID ≠ run.id) ∧ (∀ e ∈ w.reported, e.runID ≠ run.id) ∧
    (∀ r ∈ w.runs, r.id ≠ run.id) ∧
    ∃ policyIDs pairs, (pairs.map RunPair.unit).Nodup ∧ run = s.run run.id policyIDs pairs

def Taking.seenResults (w : World) (t : Taking) : List RunResult := w.results.rows ++ t.results

/-- The row is that of a run that is running, and locked by the report. -/
def Taking.Live (w : World) (t : Taking) (runID : Int) : Prop :=
  runID ∈ t.held ∧ ∃ r ∈ w.runs, r.id = runID ∧ r.status = .running

/-- A result that counts is one of a live run that expects it. -/
def Judged (w : World) (t : Taking) (r : DNSProbeResult) (runID : Int) (s : Snapshot)
    (live valid : Bool) : Prop :=
  r.targetVersion = s.target.generation ∧ (live = true → t.Live w runID) ∧
    (valid = true → live = true) ∧ ∀ run ∈ w.runs, run.id = runID → live = true →
      (valid = run.expects s.target.id t.probeID s.target.generation)

def TakePhase.Stands (w : World) (t : Taking) : TakePhase → Prop
  | .next => True
  | .validate r _ s => r.targetVersion = s.target.generation
  | .deduplicate r runID s live valid | .store r runID s live valid =>
    Judged w t r runID s live valid
  | .count left updated =>
    (∀ id ∈ t.touched, id ∈ left ∨ (updated.lookup id).isSome = true) ∧
      (∀ id ∈ left, id ∈ t.touched) ∧
      ∀ u ∈ updated, u.1 ∈ t.touched ∧ u.2 = countResults (t.seenResults w) u.1
  | .commit updated =>
    (∀ id ∈ t.touched, (updated.lookup id).isSome = true) ∧
      ∀ u ∈ updated, u.1 ∈ t.touched ∧ u.2 = countResults (t.seenResults w) u.1

structure Taking.Stands (w : World) (t : Taking) : Prop where
  touched : ∀ id ∈ t.touched, t.Live w id
  reported : ∀ e ∈ t.reported, t.Live w e.runID
  own : ∀ x ∈ t.results, x.runID ∈ t.touched
  keys : ((t.seenResults w).map RunResult.key).Nodup
  pairs : ∀ r ∈ w.runs, Counted (t.seenResults w) (w.reported ++ t.reported) r
  counts : ∀ e ∈ t.reported, ∀ r ∈ w.runs, r.id = e.runID → ∀ p ∈ r.expectedPairs,
    p.entry r.id = e → e.runID ∈ t.touched
  phase : t.phase.Stands w t

structure Inv (w : World) : Prop where
  one : ∀ r ∈ w.runs, ∀ r' ∈ w.runs, r.status = .running → r'.status = .running → r = r'
  fresh : ∀ r ∈ w.runs, r.id < w.nextRunID
  known : ∀ x ∈ w.results, x.runID < w.nextRunID
  logged : ∀ e ∈ w.reported, e.runID < w.nextRunID
  stands : ∀ r ∈ w.runs, r.Stands w.results.rows w.reported
  starting : ∀ s, w.starting = some s → s.Stands w
  taking : ∀ t, w.taking = some t → t.Stands w
  apart : ∀ s t, w.starting = some s → w.taking = some t → ∀ id ∈ s.expired, id ∉ t.held

variable {w w' : World}

/-- What a report relies on is left by a step of the others. -/
structure AroundTake (w w' : World) (t : Taking) : Prop where
  reported : w'.reported = w.reported
  sublist : w'.results.rows.Sublist w.results.rows
  results : ∀ r ∈ w'.runs, w'.results.rows.filter (·.runID = r.id) =
    w.results.rows.filter (·.runID = r.id)
  runs : ∀ r' ∈ w'.runs,
    (∃ r ∈ w.runs, r.id = r'.id ∧ r.expectedPairs = r'.expectedPairs) ∨
      (∀ x ∈ w.results, x.runID ≠ r'.id) ∧ (∀ e ∈ w.reported, e.runID ≠ r'.id) ∧
        ∀ r ∈ w.runs, r.id ≠ r'.id
  live : ∀ r ∈ w.runs, r.status = .running → r.id ∈ t.held → r ∈ w'.runs

private theorem AroundTake.mem (around : AroundTake w w' t) (member : r ∈ w'.runs) {x : RunResult}
    (same : x.runID = r.id) : x ∈ t.seenResults w' ↔ x ∈ t.seenResults w := by
  have filtered := around.results r member
  have stored : x ∈ w'.results.rows ↔ x ∈ w.results.rows := by
    have one : x ∈ w'.results.rows.filter (·.runID = r.id) ↔
        x ∈ w.results.rows.filter (·.runID = r.id) := by rw [filtered]
    simpa [List.mem_filter, same] using one
  simp [Taking.seenResults, stored]

private theorem AroundTake.count (around : AroundTake w w' t) (member : r ∈ w'.runs) :
    countResults (t.seenResults w') r.id = countResults (t.seenResults w) r.id := by
  have filtered := congrArg List.length (around.results r member)
  simp only [← List.countP_eq_length_filter] at filtered
  simp only [countResults, Taking.seenResults, List.countP_append, filtered]

private theorem Taking.Live.frame {id : Int} (live : t.Live w id) (around : AroundTake w w' t) :
    t.Live w' id := by
  obtain ⟨held, r, member, rfl, running⟩ := live
  exact ⟨held, r, around.live r member running held, rfl, running⟩

private theorem Taking.Live.old {r' : Run} (live : t.Live w r'.id) (around : AroundTake w w' t)
    (member : r' ∈ w'.runs) : r' ∈ w.runs := by
  obtain ⟨held, r, old, same, running⟩ := live
  have kept := around.live r old running (same ▸ held)
  rwa [w'.runs.eq_of_key member kept same.symm]

theorem Taking.Stands.frame (stands : t.Stands w) (around : AroundTake w w' t) : t.Stands w' := by
  have counted : ∀ updated : List (Int × Nat),
      (∀ u ∈ updated, u.1 ∈ t.touched ∧ u.2 = countResults (t.seenResults w) u.1) →
      ∀ u ∈ updated, u.1 ∈ t.touched ∧ u.2 = countResults (t.seenResults w') u.1 := by
    intro updated before u listed
    obtain ⟨touched, same⟩ := before u listed
    obtain ⟨-, r, member, own, -⟩ := (stands.touched _ touched).frame around
    refine ⟨touched, ?_⟩
    rw [same, ← own, around.count member]
  have judged : ∀ r runID s live valid, Judged w t r runID s live valid →
      Judged w' t r runID s live valid := by
    rintro r runID s live valid ⟨version, lives, implied, same⟩
    refine ⟨version, fun on => (lives on).frame around, implied, ?_⟩
    intro run member own on
    exact same run ((own ▸ lives on : t.Live w run.id).old around member) own on
  constructor
  case touched => exact fun id listed => (stands.touched id listed).frame around
  case reported => exact fun e listed => (stands.reported e listed).frame around
  case own => exact stands.own
  case keys =>
    exact stands.keys.sublist ((around.sublist.append (List.Sublist.refl _)).map _)
  case pairs =>
    intro r' member
    rcases around.runs r' member with ⟨r, old, same, pairs⟩ | ⟨unstored, unlogged, unknown⟩
    · have before := stands.pairs r old
      constructor
      · intro x listed own
        have listed := (around.mem member own).mp listed
        obtain ⟨p, expected, rest⟩ := before.counted x listed (own.trans same.symm)
        rw [around.reported]
        exact ⟨p, pairs ▸ expected, same ▸ rest⟩
      · intro p expected entry
        rw [around.reported] at entry
        obtain ⟨x, listed, own, unit⟩ := before.complete p (pairs ▸ expected) (same ▸ entry)
        have own := own.trans same
        exact ⟨x, (around.mem member own).mpr listed, own, unit⟩
    · -- the run is new, and nothing was taken in for it
      have unheld : ∀ id, t.Live w id → id ≠ r'.id := by
        rintro id ⟨-, r, old, rfl, -⟩
        exact unknown r old
      constructor
      · intro x listed own
        rcases List.mem_append.mp ((around.mem member own).mp listed) with old | new
        · exact absurd own (unstored x old)
        · exact absurd own (unheld _ (stands.touched _ (stands.own x new)))
      · intro p _ entry
        rw [around.reported] at entry
        rcases List.mem_append.mp entry with old | new
        · exact absurd rfl (unlogged _ old)
        · exact absurd rfl (unheld _ (stands.reported _ new))
  case counts =>
    intro e listed r member own
    have old := (own ▸ stands.reported e listed : t.Live w r.id).old around member
    exact stands.counts e listed r old own
  case phase =>
    have before := stands.phase
    cases phase : t.phase with
    | next => trivial
    | validate r runID s =>
      rw [phase] at before
      exact before
    | deduplicate r runID s live valid =>
      rw [phase] at before
      exact judged r runID s live valid before
    | store r runID s live valid =>
      rw [phase] at before
      exact judged r runID s live valid before
    | count left updated =>
      rw [phase] at before
      exact ⟨before.1, before.2.1, counted updated before.2.2⟩
    | commit updated =>
      rw [phase] at before
      exact ⟨before.1, counted updated before.2⟩

/-- What a start relies on is left by a step of the others. -/
structure AroundStart (w w' : World) (s : Starting) : Prop where
  next : w.nextRunID ≤ w'.nextRunID
  expired : ∀ r ∈ w.runs, r.status = .running → r.id ∈ s.expired → r ∈ w'.runs
  running : ∀ r' ∈ w'.runs, r'.status = .running → ∃ r ∈ w.runs, r.id = r'.id ∧ r.status = .running
  ids : ∀ r' ∈ w'.runs, ∃ r ∈ w.runs, r.id = r'.id
  results : ∀ x ∈ w'.results, x ∈ w.results ∨ ∃ r ∈ w.runs, r.id = x.runID
  reported : ∀ e ∈ w'.reported, e ∈ w.reported ∨ ∃ r ∈ w.runs, r.id = e.runID

theorem Starting.Stands.frame {s : Starting} (stands : s.Stands w) (around : AroundStart w w' s) :
    s.Stands w' where
  expired id listed := by
    obtain ⟨r, member, rfl, running⟩ := stands.expired id listed
    exact ⟨r, around.expired r member running listed, rfl, running⟩
  clear phase r' member running := by
    obtain ⟨r, old, same, before⟩ := around.running r' member running
    exact same ▸ stands.clear phase r old before
  pairs := stands.pairs
  built run phase := by
    obtain ⟨fresh, unstored, unlogged, unknown, built⟩ := stands.built run phase
    refine ⟨fresh.trans_le around.next, ?_, ?_, ?_, built⟩
    · intro x member
      rcases around.results x member with old | ⟨r, old, same⟩
      · exact unstored x old
      · exact same ▸ unknown r old
    · intro e member
      rcases around.reported e member with old | ⟨r, old, same⟩
      · exact unlogged e old
      · exact same ▸ unknown r old
    · intro r' member
      obtain ⟨r, old, same⟩ := around.ids r' member
      exact same ▸ unknown r old

end ForestPanel.EntryMonitor.Runs
