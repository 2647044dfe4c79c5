import ForestPanel.EntryMonitor.RunLaws

/-!
# The accounts of manual runs

Every statement of a start and of a report keeps the invariant, and so do the timeouts of the
worker and the clearing of the history. A run is counted while it is running only, and the
report that counts its last pair completes it.
-/
namespace ForestPanel.EntryMonitor.Runs

open List Relational ClientEntry Transition

variable {w w' : World}

theorem Inv.initial (db : MonitorBase) : Inv (.initial db) where
  one _ member := absurd member List.not_mem_nil
  fresh _ member := absurd member List.not_mem_nil
  known _ member := absurd member List.not_mem_nil
  logged _ member := absurd member List.not_mem_nil
  stands _ member := absurd member List.not_mem_nil
  starting _ open_ := nomatch open_
  taking _ open_ := nomatch open_
  apart _ _ open_ := nomatch open_

theorem AroundTake.of_eq {t : Taking} (runs : w'.runs = w.runs) (results : w'.results = w.results)
    (reported : w'.reported = w.reported) : AroundTake w w' t where
  reported := reported
  sublist := results ▸ List.Sublist.refl _
  results _ _ := by rw [results]
  runs r member := .inl ⟨r, runs ▸ member, rfl, rfl⟩
  live r member _ _ := runs ▸ member

variable {s : Starting} {phase : StartPhase} {now : Int} {policyIDs ids : List Int}
  {runs : RunTable} {r' r : Run}

theorem AroundStart.of_eq (runs : w'.runs = w.runs) (results : w'.results = w.results)
    (reported : w'.reported = w.reported) (next : w.nextRunID ≤ w'.nextRunID) :
    AroundStart w w' s where
  next := next
  expired _ member _ _ := runs ▸ member
  running r member running := ⟨r, runs ▸ member, rfl, running⟩
  ids r member := ⟨r, runs ▸ member, rfl⟩
  results _ member := .inl (results ▸ member)
  reported _ member := .inl (reported ▸ member)

theorem Inv.startStep (inv : Inv w) (runs : w'.runs = w.runs) (results : w'.results = w.results)
    (reported : w'.reported = w.reported) (next : w.nextRunID ≤ w'.nextRunID)
    (taking : w'.taking = w.taking) (stands : ∀ s, w'.starting = some s → s.Stands w')
    (apart : ∀ s t, w'.starting = some s → w.taking = some t → ∀ id ∈ s.expired, id ∉ t.held) :
    Inv w' where
  one := by
    rw [runs]
    exact inv.one
  fresh r member := (inv.fresh r (runs ▸ member)).trans_le next
  known x member := (inv.known x (results ▸ member)).trans_le next
  logged e member := (inv.logged e (reported ▸ member)).trans_le next
  stands := by
    rw [runs, results, reported]
    exact inv.stands
  starting := stands
  taking t open_ := (inv.taking t (taking ▸ open_)).frame (.of_eq runs results reported)
  apart s t open_ taken := apart s t open_ (taking ▸ taken)

theorem Inv.takeStep (inv : Inv w) (runs : w'.runs = w.runs) (results : w'.results = w.results)
    (reported : w'.reported = w.reported) (next : w'.nextRunID = w.nextRunID)
    (starting : w'.starting = w.starting) (stands : ∀ t, w'.taking = some t → t.Stands w)
    (apart : ∀ s t, w.starting = some s → w'.taking = some t → ∀ id ∈ s.expired, id ∉ t.held) :
    Inv w' where
  one := by
    rw [runs]
    exact inv.one
  fresh r member := next ▸ inv.fresh r (runs ▸ member)
  known x member := next ▸ inv.known x (results ▸ member)
  logged e member := next ▸ inv.logged e (reported ▸ member)
  stands := by
    rw [runs, results, reported]
    exact inv.stands
  starting s open_ :=
    (inv.starting s (starting ▸ open_)).frame (.of_eq runs results reported next.ge)
  taking t open_ := (stands t open_).frame (.of_eq runs results reported)
  apart s t open_ taken := apart s t (starting ▸ open_) taken

private theorem Inv.ended (inv : Inv w) (answer : Except StartError Int) :
    Inv (w.ended answer) :=
  inv.startStep rfl rfl rfl le_rfl rfl (fun _ open_ => nomatch open_)
    (fun _ _ open_ => nomatch open_)

private theorem Inv.setStart (inv : Inv w) (open_ : w.starting = some s)
    (stands : ({ s with phase } : Starting).Stands w) : Inv (w.setStart s phase) := by
  refine inv.startStep rfl rfl rfl le_rfl rfl ?_ ?_
  · intro s' opened
    obtain rfl := Option.some.inj opened
    exact stands.frame (.of_eq rfl rfl rfl le_rfl)
  · intro s' t opened taken
    obtain rfl := Option.some.inj opened
    exact inv.apart s t open_ taken

private theorem Starting.Stands.moved (stands : s.Stands w)
    (clear : phase.clear = true → ∀ r ∈ w.runs, r.status = .running → r.id ∈ s.expired)
    (pairs : ∀ policyIDs pairs, phase = .insert policyIDs pairs → (pairs.map RunPair.unit).Nodup)
    (early : ∀ run, phase ≠ .commit run) : ({ s with phase } : Starting).Stands w where
  expired := stands.expired
  clear := clear
  pairs := pairs
  built run commits := absurd commits (early run)

private theorem Inv.lookup (inv : Inv w) (open_ : w.starting = some s) :
    Inv (w.setStart s .expire) := by
  apply inv.setStart open_
  exact (inv.starting s open_).moved (fun clear => nomatch clear) (fun _ _ phase => nomatch phase)
    (fun _ phase => nomatch phase)

theorem mem_stale {id : Int} (member : id ∈ (w.runs.rows.filter (Run.stale now)).map Run.id) :
    ∃ r ∈ w.runs, r.id = id ∧ r.status = .running := by
  obtain ⟨r, listed, same⟩ := List.mem_map.mp member
  obtain ⟨stored, stale⟩ := List.mem_filter.mp listed
  rw [Run.stale, Bool.and_eq_true, decide_eq_true_eq] at stale
  exact ⟨r, stored, same, stale.1⟩

private theorem Inv.expired (inv : Inv w)
    (free : ¬∃ id ∈ (w.runs.rows.filter (Run.stale s.now)).map Run.id, w.takeHolds id = true) :
    Inv { w with
      starting := some { s with
        expired := (w.runs.rows.filter (Run.stale s.now)).map Run.id
        phase := .active } } := by
  refine inv.startStep rfl rfl rfl le_rfl rfl ?_ ?_
  · intro s' opened
    obtain rfl := Option.some.inj opened
    exact {
      expired := fun id listed => mem_stale listed
      clear := fun clear => nomatch clear
      pairs := fun _ _ phase => nomatch phase
      built := fun _ phase => nomatch phase }
  · intro s' t opened taken id listed held
    obtain rfl := Option.some.inj opened
    apply free
    refine ⟨id, listed, ?_⟩
    rw [World.takeHolds, taken, Option.any_some]
    exact decide_eq_true held

private theorem Inv.active (inv : Inv w) (open_ : w.starting = some s)
    (none_ : ¬∃ r ∈ w.runs, r.status = .running ∧ r.id ∉ s.expired) :
    Inv (w.setStart s .available) := by
  apply inv.setStart open_
  refine (inv.starting s open_).moved ?_ (fun _ _ phase => nomatch phase)
    (fun _ phase => nomatch phase)
  intro _ r member running
  by_contra other
  exact none_ ⟨r, member, running, other⟩

private theorem Inv.selected (inv : Inv w) (open_ : w.starting = some s)
    (clear : s.phase.clear = true)
    (pairs : ∀ policyIDs pairs, phase = .insert policyIDs pairs → (pairs.map RunPair.unit).Nodup)
    (early : ∀ run, phase ≠ .commit run) : Inv (w.setStart s phase) := by
  have stands := inv.starting s open_
  apply inv.setStart open_
  exact stands.moved (fun _ => stands.clear clear) pairs early

private theorem Inv.available (inv : Inv w) (open_ : w.starting = some s)
    (phase : s.phase = .available) (agrees : Bool) : Inv (advanceStart w s false agrees) := by
  have clear : s.phase.clear = true := by
    rw [phase]
    rfl
  unfold advanceStart
  rw [if_neg Bool.false_ne_true]
  simp only [phase]
  cases s.selection with
  | some selection =>
    dsimp only
    cases captured : captureAIEntryProbeSelection w.db selection agrees with
    | error e => exact inv.ended _
    | ok captures =>
      apply inv.selected open_ clear
      · intro policyIDs pairs same
        obtain ⟨rfl, rfl⟩ := StartPhase.insert.inj same
        exact captured_nodup captured
      · exact fun _ same => nomatch same
  | none =>
    dsimp only
    split_ifs
    · exact inv.ended _
    · exact inv.selected open_ clear (fun _ _ same => nomatch same) (fun _ same => nomatch same)
    · exact inv.ended _
    · exact inv.selected open_ clear (fun _ _ same => nomatch same) (fun _ same => nomatch same)

private theorem Inv.tasks (inv : Inv w) (open_ : w.starting = some s)
    (phase : s.phase = .tasks policyIDs) :
    Inv (w.setStart s (.insert policyIDs (policyPairs w.db policyIDs))) := by
  have clear : s.phase.clear = true := by
    rw [phase]
    rfl
  apply inv.selected open_ clear
  · intro policyIDs pairs same
    obtain ⟨rfl, rfl⟩ := StartPhase.insert.inj same
    exact policyPairs_nodup w.db _
  · exact fun _ same => nomatch same

private theorem Inv.insert (inv : Inv w) (open_ : w.starting = some s) {pairs : List RunPair}
    (phase : s.phase = .insert policyIDs pairs) :
    Inv { w.setStart s (.commit (s.run w.nextRunID policyIDs pairs)) with
      nextRunID := w.nextRunID + 1 } := by
  have stands := inv.starting s open_
  have clear : s.phase.clear = true := by
    rw [phase]
    rfl
  refine inv.startStep rfl rfl rfl (Int.le_of_lt (Int.lt_succ _)) rfl ?_ ?_
  · intro s' opened
    obtain rfl := Option.some.inj opened
    constructor
    case expired => exact stands.expired
    case clear => exact fun _ => stands.clear clear
    case pairs => exact fun _ _ same => nomatch same
    case built =>
      intro run same
      obtain rfl := StartPhase.commit.inj same
      refine ⟨Int.lt_succ _, ?_, ?_, ?_, policyIDs, pairs, stands.pairs _ _ phase, rfl⟩
      · exact fun x member => (inv.known x member).ne
      · exact fun e member => (inv.logged e member).ne
      · exact fun r member => (inv.fresh r member).ne
  · intro s' t opened taken
    obtain rfl := Option.some.inj opened
    exact inv.apart s t open_ taken

theorem mem_expireRuns (member : r' ∈ expireRuns runs ids now) :
    (r' ∈ runs ∧ r'.id ∉ ids) ∨ ∃ r ∈ runs, r.id ∈ ids ∧ r' = r.expire now := by
  obtain ⟨r, stored, rfl⟩ := (Table.mem_updateWhere _ _ _ _ r').mp member
  split
  next listed => exact .inr ⟨r, stored, of_decide_eq_true listed, rfl⟩
  next other => exact .inl ⟨stored, by simpa using other⟩

theorem kept_expireRuns (member : r ∈ runs) (other : r.id ∉ ids) : r ∈ expireRuns runs ids now := by
  refine (Table.mem_updateWhere _ _ _ _ r).mpr ⟨r, member, ?_⟩
  rw [if_neg (by simpa using other)]

private theorem origin_expireRuns (member : r' ∈ expireRuns runs ids now) :
    ∃ r ∈ runs, r.id = r'.id ∧ r.expectedPairs = r'.expectedPairs := by
  rcases mem_expireRuns member with ⟨old, -⟩ | ⟨r, old, -, rfl⟩
  · exact ⟨r', old, rfl, rfl⟩
  · exact ⟨r, old, rfl, rfl⟩

private theorem Run.Stands.expire {results : List RunResult} {reported : List Reported}
    (stands : r.Stands results reported) (running : r.status = .running) (now : Int) :
    (r.expire now).Stands results reported where
  expected := stands.expected
  distinct := stands.distinct
  received := stands.received
  pairs := ⟨stands.pairs.counted, stands.pairs.complete⟩
  open_ _ := by
    apply stands.open_
    rw [running]
    decide
  completed done := nomatch done

def Overdue (w : World) (ids : List Int) : Prop :=
  ∀ id ∈ ids, ∃ r ∈ w.runs, r.id = id ∧ r.status = .running

private theorem Inv.stands_expireRuns (inv : Inv w) (overdue : Overdue w ids)
    (member : r' ∈ expireRuns w.runs ids now) : r'.Stands w.results.rows w.reported := by
  rcases mem_expireRuns member with ⟨old, -⟩ | ⟨r, old, listed, rfl⟩
  · exact inv.stands r' old
  · obtain ⟨r₀, old₀, same, running⟩ := overdue r.id listed
    obtain rfl := w.runs.eq_of_key old₀ old same
    exact (inv.stands r₀ old₀).expire running now

private theorem running_expireRuns (member : r ∈ expireRuns runs ids now)
    (running : r.status = .running) : r ∈ runs ∧ r.id ∉ ids := by
  rcases mem_expireRuns member with kept | ⟨r, -, -, rfl⟩
  · exact kept
  · exact nomatch running

theorem Inv.expire (inv : Inv w) (free : ¬∃ id ∈ (w.runs.rows.filter (Run.stale now)).map Run.id,
      w.takeHolds id = true ∨ w.startHolds id = true) :
    Inv { w with
      runs := expireRuns w.runs ((w.runs.rows.filter (Run.stale now)).map Run.id) now } := by
  have overdue : Overdue w ((w.runs.rows.filter (Run.stale now)).map Run.id) :=
    fun id listed => mem_stale listed
  have unheld : ∀ t, w.taking = some t → ∀ r : Run, r.id ∈ t.held →
      r.id ∉ (w.runs.rows.filter (Run.stale now)).map Run.id := by
    intro t taken r held listed
    apply free
    refine ⟨r.id, listed, .inl ?_⟩
    rw [World.takeHolds, taken, Option.any_some]
    exact decide_eq_true held
  have unlocked : ∀ s, w.starting = some s → ∀ r : Run, r.id ∈ s.expired →
      r.id ∉ (w.runs.rows.filter (Run.stale now)).map Run.id := by
    intro s opened r held listed
    apply free
    refine ⟨r.id, listed, .inr ?_⟩
    rw [World.startHolds, opened, Option.any_some]
    exact decide_eq_true held
  constructor
  case one =>
    intro r member r' member' running running'
    exact inv.one r (running_expireRuns member running).1 r'
      (running_expireRuns member' running').1 running running'
  case fresh =>
    intro r member
    obtain ⟨r₀, old, same, -⟩ := origin_expireRuns member
    exact same ▸ inv.fresh r₀ old
  case known => exact inv.known
  case logged => exact inv.logged
  case stands => exact fun r member => inv.stands_expireRuns overdue member
  case starting =>
    intro s opened
    refine (inv.starting s opened).frame ?_
    constructor
    case next => exact le_rfl
    case expired =>
      exact fun r old _ listed => kept_expireRuns old (unlocked s opened r listed)
    case running =>
      exact fun r member running => ⟨r, (running_expireRuns member running).1, rfl, running⟩
    case ids =>
      intro r member
      obtain ⟨r₀, old, same, -⟩ := origin_expireRuns member
      exact ⟨r₀, old, same⟩
    case results => exact fun x member => .inl member
    case reported => exact fun e member => .inl member
  case taking =>
    intro t taken
    refine (inv.taking t taken).frame ?_
    constructor
    case reported => rfl
    case sublist => exact List.Sublist.refl _
    case results => exact fun _ _ => rfl
    case runs => exact fun r member => .inl (origin_expireRuns member)
    case live => exact fun r old _ held => kept_expireRuns old (unheld t taken r held)
  case apart => exact inv.apart

private theorem Starting.run_stands {id : Int} {pairs : List RunPair}
    (distinct : (pairs.map RunPair.unit).Nodup) {results : List RunResult}
    {reported : List Reported} (unstored : ∀ x ∈ results, x.runID ≠ id)
    (unlogged : ∀ e ∈ reported, e.runID ≠ id) :
    (s.run id policyIDs pairs).Stands results reported := by
  constructor
  case expected => rfl
  case distinct => exact distinct
  case received =>
    symm
    apply List.countP_eq_zero.mpr
    intro x member
    exact mt of_decide_eq_true (unstored x member)
  case pairs =>
    constructor
    · exact fun x member own => absurd own (unstored x member)
    · exact fun p _ entry => absurd rfl (unlogged _ entry)
  case open_ =>
    intro unfinished
    apply Nat.pos_of_ne_zero
    intro empty
    exact unfinished (if_pos empty)
  case completed =>
    intro done
    by_contra other
    have running : (s.run id policyIDs pairs).status = .running := if_neg (Ne.symm other)
    rw [running] at done
    cases done

private theorem Inv.commitStart (inv : Inv w) (open_ : w.starting = some s) {run : Run}
    (phase : s.phase = .commit run)
    (inserted : (expireRuns w.runs s.expired s.now).insert? run = some runs) :
    Inv { w.ended (.ok run.id) with runs } := by
  have stands := inv.starting s open_
  have clear : ∀ r ∈ w.runs, r.status = .running → r.id ∈ s.expired := by
    apply stands.clear
    rw [phase]
    rfl
  obtain ⟨fresh, unstored, unlogged, unknown, policyIDs, pairs, distinct, built⟩ :=
    stands.built run phase
  have members := Table.mem_of_insert? inserted
  -- whatever was running has been set to timeout
  have idle : ∀ r ∈ expireRuns w.runs s.expired s.now, r.status ≠ .running := by
    intro r member running
    obtain ⟨old, other⟩ := running_expireRuns member running
    exact other (clear r old running)
  constructor
  case one =>
    intro r member r' member' running running'
    rcases (members r).mp member with old | rfl
    · exact absurd running (idle r old)
    · rcases (members r').mp member' with old | rfl
      · exact absurd running' (idle r' old)
      · rfl
  case fresh =>
    intro r member
    rcases (members r).mp member with old | rfl
    · obtain ⟨r₀, old, same, -⟩ := origin_expireRuns old
      exact same ▸ inv.fresh r₀ old
    · exact fresh
  case known => exact inv.known
  case logged => exact inv.logged
  case stands =>
    intro r member
    rcases (members r).mp member with old | rfl
    · exact inv.stands_expireRuns stands.expired old
    · rw [built]
      exact Starting.run_stands distinct unstored unlogged
  case starting => exact fun _ opened => nomatch opened
  case taking =>
    intro t taken
    refine (inv.taking t taken).frame ?_
    constructor
    case reported => rfl
    case sublist => exact List.Sublist.refl _
    case results => exact fun _ _ => rfl
    case runs =>
      intro r member
      rcases (members r).mp member with old | rfl
      · exact .inl (origin_expireRuns old)
      · exact .inr ⟨unstored, unlogged, unknown⟩
    case live =>
      intro r old running held
      exact absurd held (inv.apart s t open_ taken r.id (clear r old running))
  case apart => exact fun _ _ opened => nomatch opened

theorem Inv.advanceStart (inv : Inv w) (open_ : w.starting = some s) (fails agrees : Bool) :
    Inv (Runs.advanceStart w s fails agrees) := by
  cases fails with
  | true => exact inv.ended _
  | false =>
    cases phase : s.phase with
    | available => exact inv.available open_ phase agrees
    | lookup =>
      unfold Runs.advanceStart
      simp only [phase, Bool.false_eq_true, if_false]
      split
      · exact inv.lookup open_
      · split
        · split
          · exact inv
          · exact inv.ended _
        · exact inv.lookup open_
    | expire =>
      unfold Runs.advanceStart
      simp only [phase, Bool.false_eq_true, if_false]
      split
      · exact inv
      next free => exact inv.expired free
    | active =>
      unfold Runs.advanceStart
      simp only [phase, Bool.false_eq_true, if_false]
      split
      · split
        · exact inv
        · exact inv.ended _
      next none_ => exact inv.active open_ none_
    | tasks policyIDs =>
      unfold Runs.advanceStart
      simp only [phase, Bool.false_eq_true, if_false]
      exact inv.tasks open_ phase
    | insert policyIDs pairs =>
      unfold Runs.advanceStart
      simp only [phase, Bool.false_eq_true, if_false]
      exact inv.insert open_ phase
    | commit run =>
      unfold Runs.advanceStart
      simp only [phase, Bool.false_eq_true, if_false]
      split
      · exact inv.ended _
      next runs inserted => exact inv.commitStart open_ phase inserted

end ForestPanel.EntryMonitor.Runs
