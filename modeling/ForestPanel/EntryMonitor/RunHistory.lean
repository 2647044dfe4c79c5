import ForestPanel.EntryMonitor.RunCounts

/-!
# Manual runs over whole histories

At most one run is running, a run counts each pair of its snapshot once, and the report that
counts the last pair completes it, however starts, reports, timeouts and everything else come
in between.
-/
namespace ForestPanel.EntryMonitor.Runs

open Relational ClientEntry Transition

variable {w : World}

def World.Reports (w : World) (a : Act) : Prop :=
  a = .advanceTake false ∧ ∃ t updated, w.taking = some t ∧ t.phase = .commit updated

/-- What a step does to a run; `reports` says that it is the commit of a report. -/
structure Run.Passes (reports : Prop) (r r' : Run) : Prop where
  snapshot : r'.expectedPairs = r.expectedPairs
  expected : r'.expectedResults = r.expectedResults
  ended : r.status ≠ .running → r'.status = r.status ∧ r'.receivedResults = r.receivedResults
  short : r.status = .running → r.receivedResults < r.expectedResults
  completes : r.status = .running →
    (r'.status = .completed ↔ r'.receivedResults = r'.expectedResults)
  counts : r'.receivedResults ≠ r.receivedResults → reports

/-- A run that is made by a step; without pairs it has nothing to wait for. -/
structure Run.Opens (reported : List Reported) (r : Run) : Prop where
  received : r.receivedResults = 0
  unlogged : ∀ e ∈ reported, e.runID ≠ r.id
  status : r.status = if r.expectedResults = 0 then .completed else .running

structure Accounts (w : World) (a : Act) (w' : World) : Prop where
  old : ∀ r ∈ w.runs, ∀ r' ∈ w'.runs, r.id = r'.id → r.Passes (w.Reports a) r'
  new : ∀ r' ∈ w'.runs, (∀ r ∈ w.runs, r.id ≠ r'.id) → r'.Opens w.reported

private theorem Inv.short (inv : Inv w) {r : Run} (stored : r ∈ w.runs)
    (running : r.status = .running) : r.receivedResults < r.expectedResults := by
  apply (inv.stands r stored).open_
  rw [running]
  decide

private theorem Inv.passes_refl (inv : Inv w) {r : Run} (stored : r ∈ w.runs) (reports : Prop) :
    r.Passes reports r where
  snapshot := rfl
  expected := rfl
  ended _ := ⟨rfl, rfl⟩
  short := inv.short stored
  completes running := by
    have short := inv.short stored running
    rw [running]
    constructor
    · exact fun done => nomatch done
    · exact fun full => absurd full short.ne
  counts changed := absurd rfl changed

private theorem Inv.passes_expire (inv : Inv w) {r : Run} (stored : r ∈ w.runs)
    (running : r.status = .running) (now : Int) (reports : Prop) :
    r.Passes reports (r.expire now) where
  snapshot := rfl
  expected := rfl
  ended stopped := absurd running stopped
  short := inv.short stored
  completes _ := by
    have short := inv.short stored running
    constructor
    · exact fun done => nomatch done
    · exact fun full => absurd full short.ne
  counts changed := absurd rfl changed

private theorem Inv.passes_progress (inv : Inv w) {t : Taking} (stands : t.Stands w) {r : Run}
    (stored : r ∈ w.runs) (running : r.status = .running) {reports : Prop} (holds : reports) :
    r.Passes reports (r.progress (countResults (t.seenResults w) r.id) t.now) where
  snapshot := rfl
  expected := rfl
  ended stopped := absurd running stopped
  short := inv.short stored
  completes _ := by
    have after := progress_stands stands stored (inv.stands r stored)
    constructor
    · exact after.completed
    · intro full
      by_contra unfinished
      exact absurd full (after.open_ unfinished).ne
  counts _ := holds

private theorem Inv.accounts_same (inv : Inv w) {w' : World} (same : w'.runs = w.runs) (a : Act) :
    Accounts w a w' where
  old r stored r' member own := by
    obtain rfl := w.runs.eq_of_key stored (same ▸ member) own
    exact inv.passes_refl stored _
  new r' member fresh := absurd rfl (fresh r' (same ▸ member))

private theorem Inv.passes_expireRuns (inv : Inv w) {ids : List Int} (overdue : Overdue w ids)
    {now : Int} (reports : Prop) {r r' : Run} (stored : r ∈ w.runs)
    (member : r' ∈ expireRuns w.runs ids now) (own : r.id = r'.id) : r.Passes reports r' := by
  rcases mem_expireRuns member with ⟨old, -⟩ | ⟨r₀, old, listed, rfl⟩
  · obtain rfl := w.runs.eq_of_key stored old own
    exact inv.passes_refl stored _
  · obtain rfl := w.runs.eq_of_key stored old own
    obtain ⟨r₁, old₁, same, running⟩ := overdue r.id listed
    obtain rfl := w.runs.eq_of_key old₁ stored same
    exact inv.passes_expire stored running now _

private theorem runs_advanceStart (s : Starting) (fails agrees : Bool) :
    (advanceStart w s fails agrees).runs = w.runs ∨ ∃ run, s.phase = .commit run ∧
      (expireRuns w.runs s.expired s.now).insert? run =
        some (advanceStart w s fails agrees).runs := by
  unfold advanceStart
  split
  · exact .inl rfl
  · cases phase : s.phase with
    | commit run =>
      dsimp only
      split
      · exact .inl rfl
      next inserted => exact .inr ⟨run, rfl, inserted⟩
    | lookup => left; dsimp only; repeat' (first | rfl | split)
    | expire => left; dsimp only; repeat' (first | rfl | split)
    | active => left; dsimp only; repeat' (first | rfl | split)
    | available => left; dsimp only; repeat' (first | rfl | split)
    | tasks => exact .inl rfl
    | insert => exact .inl rfl

private theorem Inv.accounts_advanceStart (inv : Inv w) {s : Starting}
    (open_ : w.starting = some s) (fails agrees : Bool) (a : Act) :
    Accounts w a (Runs.advanceStart w s fails agrees) := by
  rcases runs_advanceStart s fails agrees with same | ⟨run, phase, inserted⟩
  · exact inv.accounts_same same a
  · have stands := inv.starting s open_
    obtain ⟨-, -, unlogged, unknown, policyIDs, pairs, -, built⟩ := stands.built run phase
    have members := Table.mem_of_insert? inserted
    constructor
    case old =>
      intro r stored r' member own
      rcases (members r').mp member with old | rfl
      · exact inv.passes_expireRuns stands.expired _ stored old own
      · exact absurd own (unknown r stored)
    case new =>
      intro r' member fresh
      rcases (members r').mp member with old | rfl
      · rcases mem_expireRuns old with ⟨kept, -⟩ | ⟨r, kept, -, rfl⟩
        · exact absurd rfl (fresh r' kept)
        · exact absurd rfl (fresh r kept)
      · constructor
        case received => rw [built]; rfl
        case unlogged => exact unlogged
        case status => rw [built]; rfl

private theorem runs_advanceTake (t : Taking) (fails : Bool) :
    (advanceTake w t fails).runs = w.runs ∨ ∃ updated, fails = false ∧
      t.phase = .commit updated ∧
        (advanceTake w t fails).runs = progressRuns w.runs updated t.now := by
  unfold advanceTake
  split
  · exact .inl rfl
  next works =>
    cases phase : t.phase with
    | commit updated =>
      dsimp only
      split
      · exact .inl rfl
      · exact .inr ⟨updated, Bool.eq_false_of_not_eq_true works, rfl, rfl⟩
    | next => left; dsimp only; repeat' (first | rfl | split)
    | validate => left; dsimp only; repeat' (first | rfl | split)
    | deduplicate => left; dsimp only; repeat' (first | rfl | split)
    | store => exact .inl rfl
    | count => left; dsimp only; repeat' (first | rfl | split)

private theorem Inv.accounts_advanceTake (inv : Inv w) {t : Taking} (taken : w.taking = some t)
    (fails : Bool) : Accounts w (.advanceTake fails) (Runs.advanceTake w t fails) := by
  rcases runs_advanceTake t fails with same | ⟨updated, rfl, phase, runs⟩
  · exact inv.accounts_same same _
  · have stands := inv.taking t taken
    have exact_ : Exact w t updated := by
      have before := stands.phase
      rw [phase] at before
      exact before
    have reports : w.Reports (.advanceTake false) := ⟨rfl, t, updated, taken, phase⟩
    constructor
    case old =>
      intro r stored r' member own
      rw [runs] at member
      rcases (mem_progressRuns exact_).mp member with ⟨old, -⟩ | ⟨r₀, old, listed, rfl⟩
      · obtain rfl := w.runs.eq_of_key stored old own
        exact inv.passes_refl stored _
      · obtain rfl := w.runs.eq_of_key stored old own
        exact inv.passes_progress stands stored (stands.running stored listed) reports
    case new =>
      intro r' member fresh
      rw [runs] at member
      obtain ⟨r, old, own⟩ := origin_progressRuns exact_ member
      exact absurd own (fresh r old)

private theorem Inv.accounts (inv : Inv w) (a : Act) : Accounts w a (Runs.step w a) := by
  cases a with
  | configure db =>
    apply inv.accounts_same
    rfl
  | start =>
    apply inv.accounts_same
    unfold Runs.step
    dsimp only
    repeat' (first | rfl | split)
  | advanceStart fails agrees =>
    unfold Runs.step
    cases opened : w.starting with
    | none => exact inv.accounts_same rfl _
    | some s => exact inv.accounts_advanceStart opened fails agrees _
  | report =>
    apply inv.accounts_same
    unfold Runs.step
    dsimp only
    repeat' (first | rfl | split)
  | advanceTake fails =>
    unfold Runs.step
    cases taken : w.taking with
    | none => exact inv.accounts_same rfl _
    | some t => exact inv.accounts_advanceTake taken fails
  | expire now =>
    unfold Runs.step
    dsimp only
    split
    · exact inv.accounts_same rfl _
    · have overdue : Overdue w ((w.runs.rows.filter (Run.stale now)).map Run.id) :=
        fun id listed => mem_stale listed
      constructor
      case old =>
        exact fun r stored r' member own => inv.passes_expireRuns overdue _ stored member own
      case new =>
        intro r' member fresh
        rcases mem_expireRuns member with ⟨old, -⟩ | ⟨r, old, -, rfl⟩
        · exact absurd rfl (fresh r' old)
        · exact absurd rfl (fresh r old)
  | clear ids =>
    unfold Runs.step
    dsimp only
    split
    · exact inv.accounts_same rfl _
    · constructor
      case old =>
        intro r stored r' member own
        obtain rfl := w.runs.eq_of_key stored ((Table.mem_deleteWhere _ _ r').mp member).1 own
        exact inv.passes_refl stored _
      case new =>
        intro r' member fresh
        exact absurd rfl (fresh r' ((Table.mem_deleteWhere _ _ r').mp member).1)

private theorem inv_step (w : World) (a : Act) (inv : Inv w) (_ : True) : Inv (step w a) :=
  inv.step a

theorem inv_run (db : MonitorBase) (acts : List Act) : Inv (run step (.initial db) acts) :=
  run_invariant inv_step (.initial db) acts (.initial db) (along_true _ acts)

end ForestPanel.EntryMonitor.Runs
