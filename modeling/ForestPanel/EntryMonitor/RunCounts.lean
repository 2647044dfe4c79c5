import ForestPanel.EntryMonitor.RunAccounts

/-!
# Counting the reports of manual runs

A report adds what it takes in to the results that it alone sees, and the counts it writes at
its end are those of the results it commits. A run is counted while it is running only, and
the report that counts its last pair completes it.
-/
namespace ForestPanel.EntryMonitor.Runs

open List Relational ClientEntry Transition

variable {w w' : World} {t t' : Taking}

private theorem Taking.Stands.same (stands : t.Stands w) (results : t'.results = t.results)
    (held : ∀ id ∈ t.held, id ∈ t'.held) (touched : t'.touched = t.touched)
    (reported : t'.reported = t.reported) (phase : t'.phase.Stands w t') : t'.Stands w := by
  have seen : t'.seenResults w = t.seenResults w := by
    rw [Taking.seenResults, results, Taking.seenResults]
  constructor
  case touched =>
    rw [touched]
    exact fun id listed => (stands.touched id listed).imp_left (held id)
  case reported =>
    rw [reported]
    exact fun e listed => (stands.reported e listed).imp_left (held e.runID)
  case own =>
    rw [results, touched]
    exact stands.own
  case keys =>
    rw [seen]
    exact stands.keys
  case pairs =>
    rw [seen, reported]
    exact stands.pairs
  case counts =>
    rw [reported, touched]
    exact stands.counts
  case phase => exact phase

private theorem Inv.aborted (inv : Inv w) : Inv { w with taking := none } :=
  inv.takeStep rfl rfl rfl rfl rfl (fun _ taken => nomatch taken) (fun _ _ _ taken => nomatch taken)

private theorem Inv.setTake (inv : Inv w) (taken : w.taking = some t) (held : t'.held = t.held)
    (stands : t'.Stands w) : Inv (w.setTake t') := by
  refine inv.takeStep rfl rfl rfl rfl rfl ?_ ?_
  · intro t'' found
    obtain rfl := Option.some.inj found
    exact stands
  · intro s t'' opened found
    obtain rfl := Option.some.inj found
    rw [held]
    exact inv.apart s t opened taken

private theorem Inv.next (inv : Inv w) (taken : w.taking = some t) (phase : t.phase = .next) :
    Inv (advanceTake w t false) := by
  have stands := inv.taking t taken
  have subset : ∀ id ∈ t.held, id ∈ t.held := fun _ listed => listed
  unfold advanceTake
  simp only [phase, Bool.false_eq_true, if_false]
  cases t.rest with
  | nil =>
    refine inv.setTake taken rfl ?_
    refine stands.same rfl subset rfl rfl ?_
    exact ⟨fun _ listed => .inl listed, fun _ listed => listed, fun _ member => nomatch member⟩
  | cons item rest =>
    dsimp only
    split
    · exact inv.setTake taken rfl (stands.same rfl subset rfl rfl trivial)
    · split
      · exact inv.setTake taken rfl (stands.same rfl subset rfl rfl trivial)
      next s found =>
        split
        · exact inv.setTake taken rfl (stands.same rfl subset rfl rfl trivial)
        next version =>
          refine inv.setTake taken rfl ?_
          refine stands.same rfl subset rfl rfl ?_
          exact (not_not.mp (not_or.mp version).2)

private theorem judged_none {r : DNSProbeResult} {s : Snapshot} (runID : Int)
    (version : r.targetVersion = s.target.generation) : Judged w t r runID s false false :=
  ⟨version, (nomatch ·), (nomatch ·), fun _ _ _ => (nomatch ·)⟩

private theorem judged_run {r : DNSProbeResult} {s : Snapshot} {run : Run} {live valid : Bool}
    (version : r.targetVersion = s.target.generation) (stored : run ∈ w.runs)
    (held : run.id ∈ t.held)
    (validated : validateRun run s.target.id t.probeID s.target.generation = some (live, valid)) :
    Judged w t r run.id s live valid := by
  unfold validateRun at validated
  split_ifs at validated with ended invalid
  · obtain ⟨rfl, rfl⟩ := Prod.mk.inj (Option.some.inj validated)
    exact judged_none run.id version
  · obtain ⟨rfl, rfl⟩ := Prod.mk.inj (Option.some.inj validated)
    refine ⟨version, fun _ => ⟨held, run, stored, rfl, not_not.mp ended⟩, fun _ => rfl, ?_⟩
    intro run' stored' same _
    rw [w.runs.eq_of_key stored' stored same]

private theorem Inv.validate (inv : Inv w) (taken : w.taking = some t) {r : DNSProbeResult}
    {runID : Int} {s : Snapshot} (phase : t.phase = .validate r runID s) :
    Inv (advanceTake w t false) := by
  have stands := inv.taking t taken
  have version : r.targetVersion = s.target.generation := by
    have before := stands.phase
    rw [phase] at before
    exact before
  have idle : Inv (w.setTake { t with phase := .deduplicate r runID s false false }) := by
    refine inv.setTake taken rfl ?_
    exact stands.same rfl (fun _ listed => listed) rfl rfl (judged_none runID version)
  unfold advanceTake
  simp only [phase, Bool.false_eq_true, if_false]
  split
  · exact idle
  · cases found : w.runs.find? runID with
    | none => exact idle
    | some run =>
      obtain ⟨stored, rfl⟩ := (w.runs.find?_eq_some runID run).mp found
      dsimp only
      split
      · exact inv
      next unlocked =>
        cases validated : validateRun run s.target.id t.probeID s.target.generation with
        | none => exact inv.aborted
        | some judged =>
          obtain ⟨live, valid⟩ := judged
          refine inv.takeStep rfl rfl rfl rfl rfl ?_ ?_
          · intro t' found'
            obtain rfl := Option.some.inj found'
            refine stands.same rfl (fun _ listed => List.mem_cons_of_mem _ listed) rfl rfl ?_
            exact judged_run version stored List.mem_cons_self validated
          · intro s' t' opened found' id listed held
            obtain rfl := Option.some.inj found'
            rcases List.mem_cons.mp held with rfl | held
            · apply unlocked
              rw [World.startHolds, opened, Option.any_some]
              exact decide_eq_true listed
            · exact inv.apart s' t opened taken id listed held

private theorem Inv.deduplicate (inv : Inv w) (taken : w.taking = some t) {r : DNSProbeResult}
    {runID : Int} {s : Snapshot} {live valid : Bool}
    (phase : t.phase = .deduplicate r runID s live valid) : Inv (advanceTake w t false) := by
  have stands := inv.taking t taken
  have judged : Judged w t r runID s live valid := by
    have before := stands.phase
    rw [phase] at before
    exact before
  unfold advanceTake
  simp only [phase, Bool.false_eq_true, if_false]
  split
  · exact inv.setTake taken rfl (stands.same rfl (fun _ listed => listed) rfl rfl trivial)
  · exact inv.setTake taken rfl (stands.same rfl (fun _ listed => listed) rfl rfl judged)

private theorem expects_iff {run : Run} {targetID probeID targetVersion : Int} :
    run.expects targetID probeID targetVersion = true ↔
      ∃ p ∈ run.expectedPairs, p.entry run.id = ⟨run.id, targetID, probeID, targetVersion⟩ := by
  simp [Run.expects, RunPair.entry, and_assoc]

section Accept

variable {r : DNSProbeResult} {runID : Int} {s : Snapshot} {live valid : Bool}

private theorem sub_touched {id : Int} (listed : id ∈ t.touched) :
    id ∈ (t.accept w.results r runID s live valid).touched := by
  rw [Taking.accept]
  dsimp only
  split
  · exact List.mem_insert_of_mem listed
  · exact listed

private theorem mem_touched {id : Int}
    (listed : id ∈ (t.accept w.results r runID s live valid).touched) :
    id ∈ t.touched ∨ valid = true ∧ id = runID := by
  rw [Taking.accept] at listed
  dsimp only at listed
  split at listed
  next counts =>
    rcases List.mem_insert_iff.mp listed with rfl | old
    · exact .inr ⟨counts, rfl⟩
    · exact .inl old
  · exact .inl listed

private theorem mem_reported {e : Reported} :
    e ∈ (t.accept w.results r runID s live valid).reported ↔
      e ∈ t.reported ∨ live = true ∧ e = ⟨runID, s.target.id, t.probeID, r.targetVersion⟩ := by
  rw [Taking.accept]
  cases live <;> simp

private theorem mem_results {x : RunResult} :
    x ∈ (t.accept w.results r runID s live valid).seenResults w ↔
      x ∈ t.seenResults w ∨ (valid = true ∧ x = runResult runID t.probeID t.now s r ∧
        ∀ y ∈ t.seenResults w, y.key ≠ x.key) := by
  rw [Taking.seenResults, Taking.accept, Taking.seenResults]
  dsimp only
  split
  next added =>
    rw [← List.append_assoc, List.mem_append, List.mem_singleton]
    constructor
    · rintro (old | rfl)
      · exact .inl old
      · exact .inr ⟨added.1, rfl, added.2⟩
    · rintro (old | ⟨-, rfl, -⟩)
      · exact .inl old
      · exact .inr rfl
  next kept =>
    constructor
    · exact .inl
    · rintro (old | ⟨counts, rfl, fresh⟩)
      · exact old
      · exact absurd ⟨counts, fresh⟩ kept

private theorem accept_keys (keys : ((t.seenResults w).map RunResult.key).Nodup) :
    (((t.accept w.results r runID s live valid).seenResults w).map RunResult.key).Nodup := by
  rw [Taking.seenResults, Taking.accept]
  dsimp only
  split
  next added =>
    rw [← List.append_assoc, List.map_append, List.nodup_append]
    refine ⟨keys, List.nodup_singleton _, ?_⟩
    intro key listed key' added' same
    obtain ⟨y, member, rfl⟩ := List.mem_map.mp listed
    rw [List.map_singleton, List.mem_singleton] at added'
    exact added.2 y member (same.trans added')
  · exact keys

private theorem accept_stored (counts : valid = true) :
    ∃ x ∈ (t.accept w.results r runID s live valid).seenResults w,
      x.runID = runID ∧ x.unit = (s.target.id, t.probeID) := by
  by_cases fresh : ∀ y ∈ t.seenResults w, y.key ≠ (runResult runID t.probeID t.now s r).key
  · exact ⟨_, mem_results.mpr (.inr ⟨counts, rfl, fresh⟩), rfl, rfl⟩
  · push Not at fresh
    obtain ⟨y, member, same⟩ := fresh
    obtain ⟨own, unit⟩ := Prod.mk.inj same
    exact ⟨y, mem_results.mpr (.inl member), own, unit⟩

private theorem accept_counted (judged : Judged w t r runID s live valid) {run : Run}
    (stored : run ∈ w.runs)
    (before : Counted (t.seenResults w) (w.reported ++ t.reported) run) :
    Counted ((t.accept w.results r runID s live valid).seenResults w)
      (w.reported ++ (t.accept w.results r runID s live valid).reported) run := by
  obtain ⟨version, -, implied, expects⟩ := judged
  constructor
  · intro x listed own
    rcases mem_results.mp listed with old | ⟨counts, rfl, -⟩
    · obtain ⟨p, expected, unit, entry⟩ := before.counted x old own
      refine ⟨p, expected, unit, ?_⟩
      rcases List.mem_append.mp entry with early | late
      · exact List.mem_append_left _ early
      · exact List.mem_append_right _ (mem_reported.mpr (.inl late))
    · -- the result is of a pair that its run expects
      have own : runID = run.id := own
      have expected := expects run stored own.symm (implied counts)
      obtain ⟨p, listed, same⟩ := expects_iff.mp (expected.symm.trans counts)
      have fields := Reported.mk.inj same
      refine ⟨p, listed, Prod.ext fields.2.1 fields.2.2.1, ?_⟩
      apply List.mem_append_right
      refine mem_reported.mpr (.inr ⟨implied counts, ?_⟩)
      rw [same, version, own]
  · intro p expected entry
    rcases List.mem_append.mp entry with early | late
    · obtain ⟨x, member, own, unit⟩ :=
        before.complete p expected (List.mem_append_left _ early)
      exact ⟨x, mem_results.mpr (.inl member), own, unit⟩
    · rcases mem_reported.mp late with late | ⟨on, same⟩
      · obtain ⟨x, member, own, unit⟩ :=
          before.complete p expected (List.mem_append_right _ late)
        exact ⟨x, mem_results.mpr (.inl member), own, unit⟩
      · have fields := Reported.mk.inj same
        have own : run.id = runID := fields.1
        have counts : valid = true := by
          rw [expects run stored own on]
          refine expects_iff.mpr ⟨p, expected, ?_⟩
          rw [same, version, own]
        obtain ⟨x, member, mine, unit⟩ := accept_stored counts
        exact ⟨x, member, mine.trans own.symm,
          unit.trans (Prod.ext fields.2.1.symm fields.2.2.1.symm)⟩

private theorem Taking.Stands.accept (stands : t.Stands w)
    (judged : Judged w t r runID s live valid) :
    (t.accept w.results r runID s live valid).Stands w := by
  constructor
  case touched =>
    intro id listed
    rcases mem_touched listed with old | ⟨counts, rfl⟩
    · exact stands.touched id old
    · exact judged.2.1 (judged.2.2.1 counts)
  case reported =>
    intro e listed
    rcases mem_reported.mp listed with old | ⟨on, rfl⟩
    · exact stands.reported e old
    · exact judged.2.1 on
  case own =>
    intro x listed
    rw [Taking.accept] at listed
    dsimp only at listed
    split at listed
    next added =>
      rcases List.mem_append.mp listed with old | new
      · exact sub_touched (stands.own x old)
      · obtain rfl := List.mem_singleton.mp new
        rw [Taking.accept, added.1]
        exact List.mem_insert_self
    · exact sub_touched (stands.own x listed)
  case keys => exact accept_keys stands.keys
  case pairs => exact fun run stored => accept_counted judged stored (stands.pairs run stored)
  case counts =>
    intro e listed run stored own p expected same
    rcases mem_reported.mp listed with old | ⟨on, rfl⟩
    · exact sub_touched (stands.counts e old run stored own p expected same)
    · have own : run.id = runID := own
      have counts : valid = true := by
        rw [judged.2.2.2 run stored own on]
        refine expects_iff.mpr ⟨p, expected, ?_⟩
        rw [same, judged.1, own]
      rw [Taking.accept, counts]
      exact List.mem_insert_self
  case phase => trivial

end Accept

private theorem Inv.store (inv : Inv w) (taken : w.taking = some t) {r : DNSProbeResult}
    {runID : Int} {s : Snapshot} {live valid : Bool}
    (phase : t.phase = .store r runID s live valid) : Inv (advanceTake w t false) := by
  have stands := inv.taking t taken
  have judged : Judged w t r runID s live valid := by
    have before := stands.phase
    rw [phase] at before
    exact before
  unfold advanceTake
  simp only [phase, Bool.false_eq_true, if_false]
  exact inv.setTake taken rfl (stands.accept judged)

private theorem Inv.count (inv : Inv w) (taken : w.taking = some t) {left : List Int}
    {updated : List (Int × Nat)} (phase : t.phase = .count left updated) :
    Inv (advanceTake w t false) := by
  have stands := inv.taking t taken
  obtain ⟨all, open_, counted⟩ : TakePhase.Stands w t (.count left updated) := by
    rw [← phase]
    exact stands.phase
  unfold advanceTake
  simp only [phase, Bool.false_eq_true, if_false]
  cases left with
  | nil =>
    refine inv.setTake taken rfl ?_
    refine stands.same rfl (fun _ listed => listed) rfl rfl ⟨?_, counted⟩
    intro id listed
    exact (all id listed).resolve_left List.not_mem_nil
  | cons id left =>
    refine inv.setTake taken rfl ?_
    refine stands.same rfl (fun _ listed => listed) rfl rfl ⟨?_, ?_, ?_⟩
    · intro id' listed
      by_cases same : id' = id
      · right
        rw [same, List.lookup_cons_self]
        rfl
      · rcases all id' listed with now | before
        · exact .inl ((List.mem_cons.mp now).resolve_left same)
        · right
          rw [List.lookup_cons, beq_false_of_ne same]
          exact before
    · exact fun id' listed => open_ id' (List.mem_cons_of_mem _ listed)
    · intro u member
      rcases List.mem_cons.mp member with rfl | old
      · exact ⟨open_ id List.mem_cons_self, rfl⟩
      · exact counted u old

/-- Every run that was touched has a count, and it is that of its results. -/
def Exact (w : World) (t : Taking) (updated : List (Int × Nat)) : Prop :=
  (∀ id ∈ t.touched, (updated.lookup id).isSome = true) ∧
    ∀ u ∈ updated, u.1 ∈ t.touched ∧ u.2 = countResults (t.seenResults w) u.1

variable {updated : List (Int × Nat)}

theorem mem_progressRuns (exact_ : Exact w t updated) {r' : Run} :
    r' ∈ progressRuns w.runs updated t.now ↔ (r' ∈ w.runs ∧ r'.id ∉ t.touched) ∨
      ∃ r ∈ w.runs, r.id ∈ t.touched ∧
        r' = r.progress (countResults (t.seenResults w) r.id) t.now := by
  have looked : ∀ id n, updated.lookup id = some n →
      id ∈ t.touched ∧ n = countResults (t.seenResults w) id := by
    intro id n found
    obtain ⟨before, after, rfl, -⟩ := List.lookup_eq_some_iff.mp found
    exact exact_.2 (id, n) (by simp)
  rw [progressRuns, Table.mem_updateWhere]
  constructor
  · rintro ⟨r, stored, rfl⟩
    cases found : updated.lookup r.id with
    | none =>
      refine .inl ⟨stored, fun listed => ?_⟩
      have counted := exact_.1 r.id listed
      rw [found] at counted
      cases counted
    | some n =>
      obtain ⟨listed, rfl⟩ := looked r.id n found
      exact .inr ⟨r, stored, listed, rfl⟩
  · rintro (⟨stored, other⟩ | ⟨r, stored, listed, rfl⟩)
    · refine ⟨r', stored, if_neg fun counted => other ?_⟩
      obtain ⟨n, found⟩ := Option.isSome_iff_exists.mp counted
      exact (looked r'.id n found).1
    · refine ⟨r, stored, ?_⟩
      rw [if_pos (exact_.1 r.id listed)]
      obtain ⟨n, found⟩ := Option.isSome_iff_exists.mp (exact_.1 r.id listed)
      rw [found, Option.getD_some, (looked r.id n found).2]

theorem origin_progressRuns (exact_ : Exact w t updated) {r' : Run}
    (member : r' ∈ progressRuns w.runs updated t.now) : ∃ r ∈ w.runs, r.id = r'.id := by
  rcases (mem_progressRuns exact_).mp member with ⟨old, -⟩ | ⟨r, old, -, rfl⟩
  · exact ⟨r', old, rfl⟩
  · exact ⟨r, old, rfl⟩

theorem Taking.Stands.running (stands : t.Stands w) {r : Run} (stored : r ∈ w.runs)
    (listed : r.id ∈ t.touched) : r.status = .running := by
  obtain ⟨-, r₀, old, same, running⟩ := stands.touched r.id listed
  rwa [w.runs.eq_of_key stored old same.symm]

private theorem running_progressRuns (stands : t.Stands w) (exact_ : Exact w t updated) {r' : Run}
    (member : r' ∈ progressRuns w.runs updated t.now) (running : r'.status = .running) :
    ∃ r ∈ w.runs, r.id = r'.id ∧ r.status = .running := by
  rcases (mem_progressRuns exact_).mp member with ⟨old, -⟩ | ⟨r, old, listed, rfl⟩
  · exact ⟨r', old, rfl, running⟩
  · exact ⟨r, old, rfl, stands.running old listed⟩

theorem progress_stands (stands : t.Stands w) {r : Run} (stored : r ∈ w.runs)
    (before : r.Stands w.results.rows w.reported) :
    (r.progress (countResults (t.seenResults w) r.id) t.now).Stands (t.seenResults w)
      (w.reported ++ t.reported) := by
  have pairs := stands.pairs r stored
  have bound : countResults (t.seenResults w) r.id ≤ r.expectedResults := by
    rw [before.expected]
    exact pairs.count_le before.distinct stands.keys
  constructor
  case expected => exact before.expected
  case distinct => exact before.distinct
  case received => rfl
  case pairs => exact ⟨pairs.counted, pairs.complete⟩
  case open_ =>
    intro unfinished
    apply Nat.lt_of_not_le
    intro full
    exact unfinished (if_pos full)
  case completed =>
    intro done
    apply le_antisymm bound
    by_contra short
    have running : (r.progress (countResults (t.seenResults w) r.id) t.now).status = .running :=
      if_neg short
    rw [running] at done
    cases done

private theorem untouched_stands (stands : t.Stands w) {r : Run} (stored : r ∈ w.runs)
    (other : r.id ∉ t.touched) (before : r.Stands w.results.rows w.reported) :
    r.Stands (t.seenResults w) (w.reported ++ t.reported) where
  expected := before.expected
  distinct := before.distinct
  received := by
    have none_ : countResults t.results r.id = 0 := by
      apply List.countP_eq_zero.mpr
      intro x listed own
      exact other (of_decide_eq_true own ▸ stands.own x listed)
    rw [before.received, Taking.seenResults, countResults, countResults, List.countP_append]
    exact (Nat.add_eq_left.mpr none_).symm
  pairs := stands.pairs r stored
  open_ := before.open_
  completed := before.completed

private theorem Inv.commitTake (inv : Inv w) (taken : w.taking = some t)
    (phase : t.phase = .commit updated) : Inv (advanceTake w t false) := by
  have stands := inv.taking t taken
  have exact_ : Exact w t updated := by
    have before := stands.phase
    rw [phase] at before
    exact before
  unfold advanceTake
  simp only [phase, Bool.false_eq_true, if_false]
  cases inserted : w.results.insertAll? t.results with
  | none => exact inv.aborted
  | some results =>
    have rows : results.rows = t.seenResults w := Table.rows_of_insertAll? inserted
    have known : ∀ id, t.Live w id → ∃ r ∈ w.runs, r.id = id := by
      rintro id ⟨-, r, old, own, -⟩
      exact ⟨r, old, own⟩
    constructor
    case one =>
      intro r member r' member' running running'
      obtain ⟨r₀, old, same, before⟩ := running_progressRuns stands exact_ member running
      obtain ⟨r₁, old', same', before'⟩ := running_progressRuns stands exact_ member' running'
      obtain rfl := inv.one r₀ old r₁ old' before before'
      exact (progressRuns w.runs updated t.now).eq_of_key member member' (same.symm.trans same')
    case fresh =>
      intro r member
      obtain ⟨r₀, old, same⟩ := origin_progressRuns exact_ member
      exact same ▸ inv.fresh r₀ old
    case known =>
      intro x member
      rcases (Table.mem_of_insertAll? inserted x).mp member with old | new
      · exact inv.known x old
      · obtain ⟨r, old, same⟩ := known _ (stands.touched _ (stands.own x new))
        exact same ▸ inv.fresh r old
    case logged =>
      intro e member
      rcases List.mem_append.mp member with old | new
      · exact inv.logged e old
      · obtain ⟨r, old, same⟩ := known _ (stands.reported e new)
        exact same ▸ inv.fresh r old
    case stands =>
      intro r' member
      rw [rows]
      rcases (mem_progressRuns exact_).mp member with ⟨old, other⟩ | ⟨r, old, -, rfl⟩
      · exact untouched_stands stands old other (inv.stands r' old)
      · exact progress_stands stands old (inv.stands r old)
    case starting =>
      intro s opened
      refine (inv.starting s opened).frame ?_
      constructor
      case next => exact le_rfl
      case expired =>
        intro r old _ listed
        refine (mem_progressRuns exact_).mpr (.inl ⟨old, fun touched => ?_⟩)
        exact inv.apart s t opened taken r.id listed (stands.touched r.id touched).1
      case running => exact fun r member running => running_progressRuns stands exact_ member running
      case ids => exact fun r member => origin_progressRuns exact_ member
      case results =>
        intro x member
        rcases (Table.mem_of_insertAll? inserted x).mp member with old | new
        · exact .inl old
        · exact .inr (known _ (stands.touched _ (stands.own x new)))
      case reported =>
        intro e member
        rcases List.mem_append.mp member with old | new
        · exact .inl old
        · exact .inr (known _ (stands.reported e new))
    case taking => exact fun _ found => nomatch found
    case apart => exact fun _ _ _ found => nomatch found

theorem Inv.advanceTake (inv : Inv w) (taken : w.taking = some t) (fails : Bool) :
    Inv (Runs.advanceTake w t fails) := by
  cases fails with
  | true => exact inv.aborted
  | false =>
    cases phase : t.phase with
    | next => exact inv.next taken phase
    | validate => exact inv.validate taken phase
    | deduplicate => exact inv.deduplicate taken phase
    | store => exact inv.store taken phase
    | count => exact inv.count taken phase
    | commit => exact inv.commitTake taken phase

private theorem cleared_results (ids : List Int) {r : Run} (member : r ∈ w.runs)
    (stays : r.cleared ids = false) :
    (w.results.deleteWhere fun x => (w.runs.find? x.runID).any (Run.cleared ids)).rows.filter
        (·.runID = r.id) = w.results.rows.filter (·.runID = r.id) := by
  rw [Table.deleteWhere, List.filter_filter]
  apply List.filter_congr
  intro x _
  by_cases own : x.runID = r.id
  · rw [own, w.runs.find?_key member, Option.any_some, stays, Bool.not_false, Bool.and_true]
  · rw [decide_eq_false own, Bool.false_and]

private theorem Inv.clear (inv : Inv w) (ids : List Int) :
    Inv { w with
      runs := w.runs.deleteWhere (Run.cleared ids)
      results := w.results.deleteWhere fun x =>
        (w.runs.find? x.runID).any (Run.cleared ids) } := by
  have kept := fun r : Run => Table.mem_deleteWhere w.runs (Run.cleared ids) r
  have stays : ∀ r : Run, r.status = .running → r.cleared ids = false := by
    intro r running
    simp [Run.cleared, running]
  constructor
  case one =>
    intro r member r' member'
    exact inv.one r ((kept r).mp member).1 r' ((kept r').mp member').1
  case fresh => exact fun r member => inv.fresh r ((kept r).mp member).1
  case known => exact fun x member => inv.known x ((Table.mem_deleteWhere _ _ x).mp member).1
  case logged => exact inv.logged
  case stands =>
    intro r member
    obtain ⟨old, uncleared⟩ := (kept r).mp member
    have before := inv.stands r old
    have same := cleared_results ids old uncleared
    have own : ∀ x : RunResult, x.runID = r.id →
        (x ∈ (w.results.deleteWhere fun x =>
          (w.runs.find? x.runID).any (Run.cleared ids)).rows ↔ x ∈ w.results.rows) := by
      intro x mine
      have filtered := congrArg (x ∈ ·) same
      simpa only [List.mem_filter, mine, decide_true, and_true, eq_iff_iff] using filtered
    constructor
    case expected => exact before.expected
    case distinct => exact before.distinct
    case received =>
      rw [before.received, countResults, countResults, List.countP_eq_length_filter,
        List.countP_eq_length_filter, same]
    case pairs =>
      constructor
      · exact fun x listed mine => before.pairs.counted x ((own x mine).mp listed) mine
      · intro p expected entry
        obtain ⟨x, listed, mine, unit⟩ := before.pairs.complete p expected entry
        exact ⟨x, (own x mine).mpr listed, mine, unit⟩
    case open_ => exact before.open_
    case completed => exact before.completed
  case starting =>
    intro s opened
    refine (inv.starting s opened).frame ?_
    constructor
    case next => exact le_rfl
    case expired => exact fun r old running _ => (kept r).mpr ⟨old, stays r running⟩
    case running => exact fun r member running => ⟨r, ((kept r).mp member).1, rfl, running⟩
    case ids => exact fun r member => ⟨r, ((kept r).mp member).1, rfl⟩
    case results => exact fun x member => .inl ((Table.mem_deleteWhere _ _ x).mp member).1
    case reported => exact fun e member => .inl member
  case taking =>
    intro t taken
    refine (inv.taking t taken).frame ?_
    constructor
    case reported => rfl
    case sublist => exact List.filter_sublist
    case results =>
      intro r member
      obtain ⟨old, uncleared⟩ := (kept r).mp member
      exact cleared_results ids old uncleared
    case runs => exact fun r member => .inl ⟨r, ((kept r).mp member).1, rfl, rfl⟩
    case live => exact fun r old running _ => (kept r).mpr ⟨old, stays r running⟩
  case apart => exact inv.apart

private theorem Inv.begin (inv : Inv w) (s : Starting) (locked : s.expired = [])
    (phase : s.phase = .lookup) : Inv { w with starting := some s } := by
  refine inv.startStep rfl rfl rfl le_rfl rfl ?_ ?_
  · intro s' opened
    obtain rfl := Option.some.inj opened
    constructor
    case expired =>
      rw [locked]
      exact fun _ listed => nomatch listed
    case clear =>
      rw [phase]
      exact fun clear => nomatch clear
    case pairs =>
      rw [phase]
      exact fun _ _ same => nomatch same
    case built =>
      rw [phase]
      exact fun _ same => nomatch same
  · intro s' t opened _
    obtain rfl := Option.some.inj opened
    rw [locked]
    exact fun _ listed => nomatch listed

private theorem Inv.beginTake (inv : Inv w) (probeID : Int) (items : List (DNSProbeResult × Int))
    (now : Int) : Inv { w with taking := some (Runs.beginTake probeID items now) } := by
  refine inv.takeStep rfl rfl rfl rfl rfl ?_ ?_
  · intro t taken
    obtain rfl := Option.some.inj taken
    constructor
    case touched => exact fun _ listed => (List.not_mem_nil listed).elim
    case reported => exact fun _ listed => (List.not_mem_nil listed).elim
    case own => exact fun _ listed => (List.not_mem_nil listed).elim
    case keys =>
      rw [Taking.seenResults]
      exact (List.append_nil _).symm ▸ w.results.keyed
    case pairs =>
      intro r stored
      rw [Taking.seenResults]
      simpa only [Runs.beginTake, List.append_nil] using (inv.stands r stored).pairs
    case counts => exact fun _ listed => (List.not_mem_nil listed).elim
    case phase => trivial
  · intro s t _ taken
    obtain rfl := Option.some.inj taken
    intro _ _ held
    cases held

theorem Inv.step (inv : Inv w) (a : Act) : Inv (Runs.step w a) := by
  cases a with
  | configure db =>
    exact inv.takeStep rfl rfl rfl rfl rfl inv.taking inv.apart
  | start requestKey policyIDs selection now =>
    unfold Runs.step
    dsimp only
    split
    · exact inv
    · split
      · exact inv.startStep rfl rfl rfl le_rfl rfl
          (fun s opened => (inv.starting s opened).frame (.of_eq rfl rfl rfl le_rfl)) inv.apart
      · exact inv.begin _ rfl rfl
  | advanceStart fails agrees =>
    unfold Runs.step
    cases opened : w.starting with
    | none => exact inv
    | some s => exact inv.advanceStart opened fails agrees
  | report probeID results now =>
    unfold Runs.step
    dsimp only
    split
    · exact inv
    · split
      · exact inv
      · exact inv.beginTake _ _ _
  | advanceTake fails =>
    unfold Runs.step
    cases taken : w.taking with
    | none => exact inv
    | some t => exact inv.advanceTake taken fails
  | expire now =>
    unfold Runs.step
    dsimp only
    split
    · exact inv
    next free => exact inv.expire free
  | clear ids =>
    unfold Runs.step
    dsimp only
    split
    · exact inv
    · exact inv.clear ids

end ForestPanel.EntryMonitor.Runs
