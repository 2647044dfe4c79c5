import ForestPanel.AIOps.Turn
import ForestPanel.ClientEntry.Normal

/-!
# No write behind an uncertain outcome

Behind an action of unknown outcome a turn only reads, and a request that failed is not
carried out again. The invariant says what the turn keeps for that: an unknown outcome
leaves the turn in its read-only phase, or halted; a failure is remembered under the key
of its request, or the turn is halted. A command of nothing but white space has no key.
-/
namespace ForestPanel

namespace AIOps

open Json (Value)
open ClientEntry (StandardLibrary)

def Event.ended : Event → Option ActionStatus
  | .executed _ result => some result.status
  | _ => none

def Event.effect : Event → Option Effect
  | .executed effect _ => some effect
  | _ => none

/-- Behind an unknown outcome nothing is written, and what failed is not carried out
again. -/
structure Cautious (trace : List Event) : Prop where
  uncertain : trace.Pairwise fun earlier later =>
    earlier.ended = some .unknown → later.writes = false
  failed : trace.Pairwise fun earlier later =>
    earlier.ended = some .failed → later.effect ≠ earlier.effect

def blankCommand (call : ToolCall) : Bool :=
  match sshProposal call with
  | some (.ssh _ command _) => trimSpace command = ""
  | _ => false

/-- The command of the call was run and its exit code says that it failed. -/
def CallEnv.exitFailure (env : CallEnv) : Bool :=
  match env.approval with
  | .started .failed _ (some code) true => 0 < code
  | _ => false

/-- No command of only white space fails in the round. -/
def Round.recorded (round : Round) : Prop :=
  ∀ calls ∈ round.answer, ∀ c ∈ calls, blankCommand c.1 = true → c.2.exitFailure = false

instance (round : Round) : Decidable round.recorded :=
  inferInstanceAs (Decidable (∀ calls ∈ round.answer, ∀ c ∈ calls,
    blankCommand c.1 = true → c.2.exitFailure = false))

/-! ## What one call carries out -/

private theorem ended_eq_none {e : Event} : e.ended = none ↔ e.effect = none := by
  cases e <;> simp [Event.ended, Event.effect]

/-- A tool by itself carries out no action, and behind a reviewed read there is neither
a write nor a proposal. -/
private structure Tame (lib : StandardLibrary) (call : ToolCall) (events : List Event)
    (outcome : Option ToolOutcome) : Prop where
  ended : ∀ e ∈ events, e.ended = none
  quiet : ∀ directory, panelRecoveryReadOnlyCall lib directory call = true →
    (∀ e ∈ events, e.writes = false) ∧ ∀ out, outcome = some out → out.proposed = none
  proposed : ∀ out effect, outcome = some out → out.proposed = some effect →
    ∃ directory, proposal lib directory call = some effect

variable {lib : StandardLibrary} {call : ToolCall} {a : ActionState} {out : ToolOutcome}
  {events : List Event} {sha256 : String → String} {full : Bool} {turn : TurnState} {batch : Batch}
  {effect : Effect} {keys : CallKeys}

private theorem tame_reading {event : Event} (reply : Reply) (ended : event.ended = none)
    (quiet : ∀ directory, panelRecoveryReadOnlyCall lib directory call = true →
      event.writes = false) :
    Tame lib call (reading event reply).1 (reading event reply).2.toOption := by
  have events : (reading event reply).1 = [event] := by
    cases reply <;> rfl
  have unproposed : ∀ out, (reading event reply).2.toOption = some out → out.proposed = none := by
    intro out found
    cases reply with
    | failed retryable => cases found
    | answered => cases found; rfl
    | proposed id => cases found; rfl
  constructor
  · simpa [events] using ended
  · intro directory readOnly
    exact ⟨by simpa [events] using quiet directory readOnly, unproposed⟩
  · intro out effect found proposes
    rw [unproposed out found] at proposes
    cases proposes

private theorem tame_nothing (lib : StandardLibrary) (call : ToolCall) : Tame lib call [] none := by
  constructor
  · simp
  · simp
  · simp

private theorem tame_proposing (attempt : Attempt)
    (acts : ∀ directory, panelRecoveryReadOnlyCall lib directory call ≠ true) :
    Tame lib call (proposing (proposal lib attempt.directory call) attempt.reply).1
      (proposing (proposal lib attempt.directory call) attempt.reply).2.toOption := by
  cases attempt.reply with
  | failed retryable => exact tame_nothing lib call
  | answered =>
    constructor
    · simp [proposing]
    · intro directory readOnly
      exact absurd readOnly (acts directory)
    · rintro out effect ⟨⟩ proposes
      cases proposes
  | proposed id =>
    cases found : proposal lib attempt.directory call with
    | none => exact tame_nothing lib call
    | some effect =>
      constructor
      · simp [proposing]
      · intro directory readOnly
        exact absurd readOnly (acts directory)
      · intro out effect' same proposes
        cases same
        cases proposes
        exact ⟨_, found⟩

private theorem callTool_tame (lib : StandardLibrary) (call : ToolCall) (attempt : Attempt) :
    Tame lib call (callTool lib call attempt).1 (callTool lib call attempt).2.toOption := by
  unfold callTool
  split
  next => exact tame_nothing lib call
  next capability allowed =>
    split
    next kind =>
      apply tame_proposing
      intro directory readOnly
      have none := (actionKind_of_readOnly readOnly).1
      rw [allowed, Option.bind_some] at none
      rw [none] at kind
      cases kind
    next =>
      split
      next knowledge =>
        apply tame_reading _ rfl
        intro directory readOnly
        obtain ⟨-, save, create⟩ := actionKind_of_readOnly readOnly
        rcases knowledge with same | same
        · exact absurd same save
        · exact absurd same create
      next =>
        split
        next =>
          split
          next => exact tame_nothing lib call
          next operation _ =>
            split
            next => exact tame_nothing lib call
            next reads =>
              apply tame_reading _ rfl
              intro _ _
              exact Bool.eq_false_iff.mpr reads
        next => exact tame_reading _ rfl fun _ _ => rfl

private theorem retryReadTool_tame (lib : StandardLibrary) (call : ToolCall) (read : Bool)
    (attempt : Nat) (attempts : List Attempt) :
    Tame lib call (retryReadTool lib call read attempt attempts).1
      (retryReadTool lib call read attempt attempts).2 := by
  induction attempts generalizing attempt with
  | nil => exact tame_nothing lib call
  | cons a rest ih =>
    have tame := callTool_tame lib call a
    rw [retryReadTool]
    split
    next => exact tame_nothing lib call
    next =>
      split
      next => exact tame_nothing lib call
      next =>
        split
        next events outcome called =>
          rw [called] at tame
          exact tame
        next events retryable called =>
          rw [called] at tame
          split
          next => exact tame
          next =>
            have later := ih (attempt + 1)
            constructor
            · intro e member
              rcases List.mem_append.mp member with first | second
              · exact tame.ended e first
              · exact later.ended e second
            · intro directory readOnly
              refine ⟨?_, (later.quiet directory readOnly).2⟩
              intro e member
              rcases List.mem_append.mp member with first | second
              · exact (tame.quiet directory readOnly).1 e first
              · exact (later.quiet directory readOnly).1 e second
            · exact later.proposed

/-! ## What an ended action leaves -/

private theorem outcome_actionID {id : Int} (ended : automaticActionOutcome id a = some out) :
    out.actionID = id := by
  unfold automaticActionOutcome at ended
  split at ended
  next => cases ended; rfl
  next =>
    split at ended
    next => cases ended; rfl
    next =>
      split at ended
      next => cases ended
      next => cases ended; rfl

private theorem outcome_unknown {id : Int} (ended : automaticActionOutcome id a = some out)
    (unknown : a.status = .unknown) :
    out.sshExitCode = none ∧ out.panelRecovery = .readOnly ∧ out.actionID = id := by
  have code : knownSSHExitFailure a = none := by
    simp [knownSSHExitFailure, unknown]
  rw [automaticActionOutcome, code] at ended
  dsimp only at ended
  by_cases kind : a.kind = .panelOperation
  · have recovery : panelActionRecovery a = .readOnly := by
      simp [panelActionRecovery, kind, unknown]
    simp only [recovery] at ended
    cases ended
    exact ⟨rfl, rfl, rfl⟩
  · have recovery : panelActionRecovery a = .none := by
      simp [panelActionRecovery, kind]
    simp [recovery, unknown] at ended

private theorem outcome_failed {id : Int} (ended : automaticActionOutcome id a = some out)
    (failed : a.status = .failed) :
    out.actionID = id ∧
      (a.kind = .sshCommand ∧ a.exitCode = out.sshExitCode ∧
          out.sshExitCode.any (fun code => 0 < code) = true ∨
        a.kind = .panelOperation ∧ out.sshExitCode = none ∧ out.panelRecovery = .preflight) := by
  unfold automaticActionOutcome at ended
  split at ended
  next code known =>
    cases ended
    unfold knownSSHExitFailure at known
    split at known
    next kind =>
      obtain ⟨exit, positive⟩ := Option.filter_eq_some_iff.mp known
      exact ⟨rfl, Or.inl ⟨kind.1, exit, by simpa using positive⟩⟩
    next => cases known
  next =>
    split at ended
    next recovery =>
      cases ended
      refine ⟨rfl, Or.inr ?_⟩
      unfold panelActionRecovery at recovery ⊢
      by_cases kind : a.kind = .panelOperation
      · refine ⟨kind, rfl, ?_⟩
        simp only [kind, failed, ne_eq, not_true_eq_false, if_false, reduceCtorEq] at recovery ⊢
        split at recovery
        next => exact absurd rfl recovery
        next =>
          split at recovery
          next listed => exact if_pos listed
          next => exact absurd rfl recovery
      · simp [kind] at recovery
    next =>
      split at ended
      next => cases ended
      next other =>
        rw [failed] at other
        exact absurd (by decide) other

/-! ## What the turn remembers -/

def TurnState.remembers (sha256 : String → String) (turn : TurnState) : Effect → Prop
  | .ssh server command _ =>
    0 < failedAction turn.failedSSHCommands (sshKey sha256 server command)
  | .panel operation parameters =>
    0 < failedAction turn.failedPanelOperations (some (panelKey sha256 operation parameters))
  | .other _ _ => False

private theorem failedAction_remember (failed : List (String × Int)) (id : Int) (key : String) :
    failedAction (remember failed (some key) id) (some key) = id := by
  simp [failedAction, remember]

private theorem failedAction_remember_of {failed : List (String × Int)} {id : Int}
    (positive : 0 < id) {key : Option String} (other : Option String)
    (known : 0 < failedAction failed key) : 0 < failedAction (remember failed other id) key := by
  cases other with
  | none => exact known
  | some other =>
    cases key with
    | none => exact known
    | some key =>
      by_cases same : key = other
      · subst same
        rwa [failedAction_remember]
      · have missed : (key == other) = false := beq_eq_false_iff_ne.mpr same
        simpa [failedAction, remember, List.lookup_cons, missed] using known

structure Careful (sha256 : String → String) (full : Bool) (s : TurnState × Batch) : Prop where
  cautious : Cautious s.1.trace
  manual : full = false → ∀ e ∈ s.1.trace, e.ended = none
  uncertain : ∀ e ∈ s.1.trace, e.ended = some .unknown →
    0 < s.1.panelReadOnlyActionID ∨ s.2.halt = true
  failed : ∀ e ∈ s.1.trace, e.ended = some .failed → ∀ effect, e.effect = some effect →
    s.1.remembers sha256 effect ∨ s.2.halt = true

private theorem cautious_append {trace : List Event} (before : Cautious trace)
    (new : Cautious events)
    (quiet : (∃ e ∈ trace, e.ended = some .unknown) → ∀ e ∈ events, e.writes = false)
    (fresh : ∀ e ∈ trace, e.ended = some .failed → ∀ e' ∈ events, e'.effect ≠ e.effect) :
    Cautious (trace ++ events) := by
  constructor
  · rw [List.pairwise_append]
    exact ⟨before.uncertain, new.uncertain, fun e known e' added unknown =>
      quiet ⟨e, known, unknown⟩ e' added⟩
  · rw [List.pairwise_append]
    exact ⟨before.failed, new.failed, fun e known e' added failed => fresh e known failed e' added⟩

private theorem cautious_of_ended (ended : ∀ e ∈ events, e.ended = none) : Cautious events := by
  have none : ∀ e ∈ events, ∀ status, e.ended ≠ some status := by
    intro e member status
    simp [ended e member]
  constructor
  · apply List.Pairwise.imp_of_mem _ (List.pairwise_of_forall (R := fun _ _ => True) fun _ _ => trivial)
    exact fun member _ _ unknown => absurd unknown (none _ member _)
  · apply List.Pairwise.imp_of_mem _ (List.pairwise_of_forall (R := fun _ _ => True) fun _ _ => trivial)
    exact fun member _ _ failed => absurd failed (none _ member _)

private theorem careful_record (h : Careful sha256 full (turn, batch))
    (ended : ∀ e ∈ events, e.ended = none)
    (quiet : (∃ e ∈ turn.trace, e.ended = some .unknown) → ∀ e ∈ events, e.writes = false) :
    Careful sha256 full (turn.record events, batch) := by
  have old : ∀ e ∈ turn.trace ++ events, ∀ status, e.ended = some status → e ∈ turn.trace := by
    intro e member status is
    rcases List.mem_append.mp member with known | added
    · exact known
    · simp [ended e added] at is
  constructor
  · apply cautious_append h.cautious (cautious_of_ended ended) quiet
    intro e known failed e' added same
    rw [ended_eq_none.mp (ended e' added)] at same
    rw [ended_eq_none.mpr same.symm] at failed
    cases failed
  · intro manual e member
    rcases List.mem_append.mp member with known | added
    · exact h.manual manual e known
    · exact ended e added
  · exact fun e member unknown => h.uncertain e (old e member _ unknown) unknown
  · exact fun e member failed => h.failed e (old e member _ failed) failed

/-- The keys under which a request is found; other actions have none. -/
private structure KeysOf (sha256 : String → String) (keys : CallKeys) (effect : Effect) : Prop where
  command : ∀ server command timeout, effect = .ssh server command timeout →
    keys.command = sshKey sha256 server command
  operation : ∀ operation parameters, effect = .panel operation parameters →
    keys.operation = some (panelKey sha256 operation parameters)
  other : ∀ kind arguments, effect = .other kind arguments →
    kind ≠ .sshCommand ∧ kind ≠ .panelOperation

private theorem keysOf_call {directory : List PanelOperation} (sha256 : String → String)
    (proposes : proposal lib directory call = some effect) :
    KeysOf sha256 ⟨sshRecoveryCommandKey sha256 call, panelRecoveryOperationKey sha256 call⟩
      effect := by
  obtain ⟨tool, asked, _, _, _, is⟩ | ⟨tool, asked, _, _, is⟩ | ⟨_, is, command, operation⟩ :=
    proposal_cases proposes
  · constructor
    · rintro server command timeout rfl
      exact sshRecoveryCommandKey_eq sha256 tool asked
    · rintro operation parameters rfl
      cases is
    · rintro kind arguments rfl
      cases is
  · constructor
    · rintro server command timeout rfl
      cases is
    · rintro operation parameters rfl
      exact panelRecoveryOperationKey_eq sha256 tool asked
    · rintro kind arguments rfl
      cases is
  · constructor
    · rintro server text timeout rfl
      cases is
    · rintro name parameters rfl
      cases is
    · rintro kind arguments rfl
      cases is
      exact ⟨command, operation⟩

private theorem recover_frame (turn : TurnState) (batch : Batch) (keys : CallKeys)
    (outcome : ToolOutcome) :
    (turn.recover batch keys outcome).1.trace = turn.trace ∧
      (turn.recover batch keys outcome).2.halt = batch.halt := by
  unfold TurnState.recover
  split
  next => exact ⟨rfl, rfl⟩
  next => split <;> exact ⟨rfl, rfl⟩

private theorem recover_keeps {outcome : ToolOutcome} (batch : Batch) (keys : CallKeys)
    (positive : 0 < outcome.actionID) :
    (0 < turn.panelReadOnlyActionID →
      0 < (turn.recover batch keys outcome).1.panelReadOnlyActionID) ∧
    ∀ effect, turn.remembers sha256 effect →
      (turn.recover batch keys outcome).1.remembers sha256 effect := by
  unfold TurnState.recover
  split
  next =>
    refine ⟨id, ?_⟩
    intro effect known
    cases effect with
    | ssh server command timeout => exact failedAction_remember_of positive _ known
    | panel operation parameters => exact known
    | other kind arguments => exact known
  next =>
    split
    next => exact ⟨id, fun _ known => known⟩
    next =>
      refine ⟨id, ?_⟩
      intro effect known
      cases effect with
      | ssh server command timeout => exact known
      | panel operation parameters => exact failedAction_remember_of positive _ known
      | other kind arguments => exact known
    next =>
      refine ⟨fun _ => positive, ?_⟩
      intro effect known
      cases effect with
      | ssh server command timeout => exact known
      | panel operation parameters => exact known
      | other kind arguments => exact known

private theorem recover_failed (own : KeysOf sha256 keys effect) {id : Int} {state : ActionState}
    {outcome : ToolOutcome} (kind : state.kind = effect.kind)
    (ended : automaticActionOutcome id state = some outcome) (failed : state.status = .failed)
    (positive : 0 < id) (recorded : ∀ server command timeout, effect = .ssh server command timeout →
      state.exitCode.any (fun code => 0 < code) = true → trimSpace command ≠ "") (turn : TurnState)
    (batch : Batch) : (turn.recover batch keys outcome).1.remembers sha256 effect := by
  obtain ⟨named, ⟨command, exit, nonzero⟩ | ⟨operation, quiet, preflight⟩⟩ :=
    outcome_failed ended failed
  · rw [TurnState.recover, if_pos nonzero]
    rw [kind] at command
    cases effect with
    | ssh server text timeout =>
      have key : sshKey sha256 server text ≠ none := by
        rw [sshKey, if_neg (recorded server text timeout rfl (exit ▸ nonzero))]
        simp
      obtain ⟨key, found⟩ := Option.ne_none_iff_exists'.mp key
      rw [TurnState.remembers, own.command server text timeout rfl, found]
      rw [failedAction_remember, named]
      exact positive
    | panel operation parameters => cases command
    | other other arguments => exact absurd command (own.other other arguments rfl).1
  · rw [TurnState.recover, quiet, if_neg (by simp), preflight]
    rw [kind] at operation
    cases effect with
    | ssh server text timeout => cases operation
    | panel name parameters =>
      rw [TurnState.remembers, own.operation name parameters rfl]
      rw [failedAction_remember, named]
      exact positive
    | other other arguments => exact absurd operation (own.other other arguments rfl).2

/-! ## One call -/

private theorem careful_executed (state : ActionState) {id : Int}
    (h : Careful sha256 true (turn, batch)) (going : batch.halt = false)
    (settled : turn.panelReadOnlyActionID ≤ 0) (fresh : ¬turn.remembers sha256 effect)
    (own : KeysOf sha256 keys effect) (kind : state.kind = effect.kind) (positive : 0 < id) :
    Careful sha256 true (turn.record [.executed effect state], batch.halted) ∧
    ∀ outcome, automaticActionOutcome id state = some outcome →
      (∀ server command timeout, effect = .ssh server command timeout →
        state.status = .failed → state.exitCode.any (fun code => 0 < code) = true →
          trimSpace command ≠ "") →
      Careful sha256 true
        ((turn.record [.executed effect state]).recover batch keys outcome) := by
  have certain : ∀ e ∈ turn.trace, e.ended ≠ some .unknown := by
    intro e member unknown
    rcases h.uncertain e member unknown with readOnly | halted
    · exact absurd readOnly (Int.not_lt.mpr settled)
    · exact absurd (going.symm.trans halted) (by decide)
  have cautious : Cautious (turn.trace ++ [.executed effect state]) := by
    apply cautious_append h.cautious
    · constructor
      · exact List.pairwise_singleton _ _
      · exact List.pairwise_singleton _ _
    · rintro ⟨e, member, unknown⟩
      exact absurd unknown (certain e member)
    · intro e member failed e' added same
      rw [List.mem_singleton.mp added] at same
      rcases h.failed e member failed effect same.symm with known | halted
      · exact fresh known
      · rw [going] at halted
        cases halted
  constructor
  · constructor
    · exact cautious
    · intro manual
      cases manual
    · exact fun _ _ _ => Or.inr rfl
    · exact fun _ _ _ _ _ => Or.inr rfl
  · intro outcome ended recorded
    obtain ⟨trace, halt⟩ :=
      recover_frame (turn.record [.executed effect state]) batch keys outcome
    have named : 0 < outcome.actionID := by
      rw [outcome_actionID ended]
      exact positive
    obtain ⟨readOnly, remembers⟩ := @recover_keeps sha256
      (turn.record [.executed effect state]) outcome batch keys named
    constructor
    · rw [trace]
      exact cautious
    · intro manual
      cases manual
    · rw [trace]
      intro e member unknown
      rcases List.mem_append.mp member with known | added
      · exact absurd unknown (certain e known)
      · rw [List.mem_singleton.mp added] at unknown
        obtain ⟨code, recovery, same⟩ := outcome_unknown ended (Option.some.inj unknown)
        left
        rw [TurnState.recover, code, if_neg (by simp), recovery]
        exact same ▸ positive
    · rw [trace, halt]
      intro e member failed other is
      left
      rcases List.mem_append.mp member with known | added
      · rcases h.failed e known failed other is with old | halted
        · exact remembers other old
        · rw [going] at halted
          cases halted
      · rw [List.mem_singleton.mp added] at failed is
        cases is
        exact recover_failed own kind ended (Option.some.inj failed) positive
          (fun server command timeout same => recorded server command timeout same
            (Option.some.inj failed)) _ _

private theorem careful_halted (h : Careful sha256 full (turn, batch)) :
    Careful sha256 full (turn, batch.halted) :=
  ⟨h.cautious, h.manual, fun _ _ _ => Or.inr rfl, fun _ _ _ _ _ => Or.inr rfl⟩

private theorem careful_automatic {env : CallEnv} (id : Int) (h : Careful sha256 true (turn, batch))
    (going : batch.halt = false) (settled : turn.panelReadOnlyActionID ≤ 0)
    (fresh : ¬turn.remembers sha256 effect) (own : KeysOf sha256 keys effect)
    (recorded : ∀ server command timeout, effect = .ssh server command timeout →
      env.exitFailure = true → trimSpace command ≠ "") :
    Careful sha256 true
      (match (automaticActionResult effect id env.approval).2 with
        | none => (turn.record (automaticActionResult effect id env.approval).1, batch.halted)
        | some outcome =>
          (turn.record (automaticActionResult effect id env.approval).1).recover batch keys
            outcome) := by
  have refused : Careful sha256 true (turn.record [], batch.halted) :=
    careful_halted (careful_record h (by simp) (by simp))
  cases approval : env.approval with
  | refused => exact refused
  | started status output exitCode seen =>
    by_cases absent : id ≤ 0
    · rw [automaticActionResult, if_pos absent]
      exact refused
    · obtain ⟨halted, recovered⟩ := careful_executed
        ⟨effect.kind, status, output, exitCode⟩ h going settled fresh own rfl
        (Int.not_le.mp absent)
      rw [automaticActionResult, if_neg absent]
      cases seen with
      | false => exact halted
      | true =>
        dsimp only
        rw [if_pos rfl]
        split
        next => exact halted
        next outcome ended =>
          apply recovered outcome ended
          intro server command timeout is failed exit
          apply recorded server command timeout is
          dsimp only at failed exit
          rw [CallEnv.exitFailure, approval, failed]
          cases exitCode with
          | none => cases exit
          | some code => exact exit

private theorem careful_invoke {env : CallEnv} (h : Careful sha256 full (turn, batch))
    (going : batch.halt = false) (readOnly : 0 < turn.panelReadOnlyActionID →
      panelRecoveryReadOnlyCall lib env.recovering call = true) (operation : full = true →
      ¬0 < failedAction turn.failedPanelOperations (panelRecoveryOperationKey sha256 call))
    (command : full = true →
      ¬0 < failedAction turn.failedSSHCommands (sshRecoveryCommandKey sha256 call))
    (recorded : blankCommand call = true → env.exitFailure = false) :
    Careful sha256 full (invoke lib full turn batch
      ⟨sshRecoveryCommandKey sha256 call, panelRecoveryOperationKey sha256 call⟩ call env) := by
  have tame := retryReadTool_tame lib call (panelRecoveryReadOnlyCall lib env.reviewing call) 1
    env.attempts
  have uncertain : (∃ e ∈ turn.trace, e.ended = some .unknown) → 0 < turn.panelReadOnlyActionID := by
    rintro ⟨e, member, unknown⟩
    rcases h.uncertain e member unknown with known | halted
    · exact known
    · exact absurd (going.symm.trans halted) (by decide)
  unfold invoke
  generalize retryReadTool lib call (panelRecoveryReadOnlyCall lib env.reviewing call) 1
    env.attempts = answer at tame
  have called : Careful sha256 full (turn.record answer.1, batch) :=
    careful_record h tame.ended fun known =>
      (tame.quiet env.recovering (readOnly (uncertain known))).1
  dsimp only
  split
  next => exact called
  next effect id pending =>
    obtain ⟨outcome, answered, proposed⟩ := Option.bind_eq_some_iff.mp pending
    obtain ⟨effect', proposes, same⟩ := Option.map_eq_some_iff.mp proposed
    cases same
    obtain ⟨directory, asked⟩ := tame.proposed outcome effect answered proposes
    -- a call that proposes is no reviewed read, so the turn is not in its read-only phase
    have settled : turn.panelReadOnlyActionID ≤ 0 := by
      apply Int.not_lt.mp
      intro phase
      have unproposed := (tame.quiet env.recovering (readOnly phase)).2 outcome answered
      rw [proposes] at unproposed
      cases unproposed
    have own := keysOf_call sha256 asked
    split
    next isFull =>
      subst isFull
      apply careful_automatic outcome.actionID called going settled _ own
      · rintro server text timeout rfl failure blank
        have found : blankCommand call = true := by
          obtain ⟨-, ssh, -⟩ | ⟨-, -, _, _, is⟩ | ⟨_, is, -⟩ := proposal_cases asked
          · rw [blankCommand, ssh]
            exact decide_eq_true blank
          · cases is
          · cases is
        rw [recorded found] at failure
        cases failure
      · intro known
        cases effect with
        | ssh server text timeout =>
          apply command rfl
          have key : sshRecoveryCommandKey sha256 call = _ := own.command server text timeout rfl
          rw [key]
          exact known
        | panel name parameters =>
          apply operation rfl
          have key : panelRecoveryOperationKey sha256 call = _ := own.operation name parameters rfl
          rw [key]
          exact known
        | other kind arguments => exact known
    next manual =>
      exact ⟨called.cautious, called.manual, called.uncertain, called.failed⟩

private theorem careful_handleCall {s : TurnState × Batch} {c : ToolCall × CallEnv}
    (h : Careful sha256 full s) (recorded : blankCommand c.1 = true → c.2.exitFailure = false) :
    Careful sha256 full (handleCall lib sha256 full s c) := by
  obtain ⟨turn, batch⟩ := s
  unfold handleCall
  dsimp only
  split
  next => exact h
  next can =>
    have going : batch.halt = false := by
      cases halt : batch.halt with
      | false => rfl
      | true => simp [Batch.canCall, halt] at can
    split
    next => exact careful_halted h
    next =>
      split
      next => exact h
      next reads =>
        split
        next => exact ⟨h.cautious, h.manual, h.uncertain, h.failed⟩
        next operation =>
          split
          next => exact ⟨h.cautious, h.manual, h.uncertain, h.failed⟩
          next command =>
            apply careful_invoke h going _ (fun isFull => not_and.mp operation isFull)
              (fun isFull => not_and.mp command isFull) recorded
            intro phase
            simpa using not_and.mp reads phase

/-! ## Rounds -/

/-- The invariant between the rounds: a turn that goes on is not halted. -/
private structure Settled (sha256 : String → String) (full : Bool) (turn : TurnState) : Prop where
  cautious : Cautious turn.trace
  going : turn.ending = none → Careful sha256 full (turn, startedBatch)

private theorem settled_finish (cautious : Cautious turn.trace) (ending : Ending) :
    Settled sha256 full (turn.finish ending) := by
  constructor
  · exact cautious
  · intro goes
    cases goes

private theorem settled_playRound {round : Round} (h : Careful sha256 full (turn, startedBatch))
    (recorded : round.recorded) : Settled sha256 full (playRound lib sha256 full turn round) := by
  unfold playRound
  split
  next => exact settled_finish h.cautious _
  next =>
    split
    next => exact settled_finish h.cautious _
    next calls answer =>
      have played : Careful sha256 full
          (calls.foldl (handleCall lib sha256 full) (turn, startedBatch)) := by
        apply List.foldlRecOn calls _ h
        intro s careful c member
        exact careful_handleCall careful (recorded calls answer c member)
      split
      next => exact settled_finish h.cautious _
      next =>
        split
        next => split <;> exact settled_finish h.cautious _
        next =>
          dsimp only
          split
          next => exact settled_finish played.cautious _
          next =>
            split
            next => exact settled_finish played.cautious _
            next =>
              split
              next => exact settled_finish played.cautious _
              next =>
                split
                next => exact settled_finish played.cautious _
                next running =>
                  -- the batch was not halted, so what the turn keeps carries the invariant
                  refine ⟨played.cautious, fun _ => ⟨played.cautious, played.manual, ?_, ?_⟩⟩
                  · exact fun e member unknown =>
                      Or.inl ((played.uncertain e member unknown).resolve_right running)
                  · exact fun e member failed effect is =>
                      Or.inl ((played.failed e member failed effect is).resolve_right running)

private theorem settled_playRounds {rounds : List Round} (round : Nat)
    (h : Settled sha256 full turn) (recorded : ∀ r ∈ rounds, r.recorded) :
    Settled sha256 full (playRounds lib sha256 full round turn rounds) := by
  induction rounds generalizing round turn with
  | nil => exact h
  | cons next rest ih =>
    rw [playRounds]
    split
    · exact h
    · split
      · exact settled_finish h.cautious _
      · rename_i running _
        apply ih
        · exact settled_playRound (h.going (by simpa using running))
            (recorded next List.mem_cons_self)
        · exact fun r member => recorded r (List.mem_cons_of_mem next member)

/-- In a turn in which no command of only white space fails, nothing is written behind an
unknown outcome, and what failed is not carried out again. -/
theorem turn_cautious (lib : StandardLibrary) (sha256 : String → String) (full : Bool)
    (rounds : List Round) (recorded : ∀ round ∈ rounds, round.recorded) :
    Cautious (runTurn lib sha256 full rounds).trace := by
  apply (settled_playRounds 0 _ recorded).cautious
  have empty : Cautious startedTurn.trace := ⟨List.Pairwise.nil, List.Pairwise.nil⟩
  refine ⟨empty, fun _ => ⟨empty, ?_, ?_, ?_⟩⟩
  · intro _ e member
    cases member
  · intro e member
    cases member
  · intro e member
    cases member

/-- Two rounds ask for the same command, whose exit code is 127 both times. -/
private def failsTwice (command : String) : List Round :=
  let call : ToolCall := ⟨"call_1", "propose_ssh_command",
    "\x7b\"server_id\":1,\"command\":\"" ++ command ++ "\",\"reason\":\"check\"\x7d"⟩
  let round := fun id : Int =>
    (⟨true, some [(call, ⟨true, [], [], [⟨true, [], [], .proposed id⟩],
      .started .failed "" (some 127) true⟩)], true, true, false⟩ : Round)
  [round 1, round 2]

theorem turn_cautious_command :
    Cautious (runTurn ClientEntry.asciiLibrary id true (failsTwice "service restart")).trace :=
  turn_cautious _ _ _ _ (by decide +kernel)

/-- An ideographic space is a command for the shell, which does not know it; the next
round runs it again. -/
theorem blank_command_runs_again :
    (runTurn ClientEntry.asciiLibrary id true (failsTwice "\u3000")).trace =
      [.executed (.ssh 1 "\u3000" 120) ⟨.sshCommand, .failed, "", some 127⟩,
        .executed (.ssh 1 "\u3000" 120) ⟨.sshCommand, .failed, "", some 127⟩] ∧
    ¬Cautious (runTurn ClientEntry.asciiLibrary id true (failsTwice "\u3000")).trace := by
  have trace : (runTurn ClientEntry.asciiLibrary id true (failsTwice "\u3000")).trace =
      [.executed (.ssh 1 "\u3000" 120) ⟨.sshCommand, .failed, "", some 127⟩,
        .executed (.ssh 1 "\u3000" 120) ⟨.sshCommand, .failed, "", some 127⟩] := by
    decide +kernel
  refine ⟨trace, ?_⟩
  intro cautious
  have failed := cautious.failed
  rw [trace] at failed
  revert failed
  decide

end AIOps

end ForestPanel
