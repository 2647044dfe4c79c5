import Mathlib.Tactic.Cases
import ForestPanel.Queue.Runtime

/-!
# Where an accepted job is

Each accepted job is in exactly one place: in the buffer, in the hand of one worker,
or started, once. `Accounts` says so by counting, call by call.
-/
namespace ForestPanel.Queue

open Channel

def QueuedJob.of (n : Nat) (job : QueuedJob) : Bool := decide (job.call = n)

namespace Worker

def job? : Worker → Option QueuedJob
  | took job => some job
  | running job => some job
  | _ => none

/-- It has received the job of the call `n` and not started it. -/
def takes (n : Nat) : Worker → Bool
  | took job => job.of n
  | _ => false

def runs (n : Nat) : Worker → Bool
  | running job => job.of n
  | _ => false

end Worker

def Known (calls : List Call) (job : QueuedJob) : Prop :=
  ∃ c, calls[job.call]? = some c ∧ c.job = job

def Keeps (calls calls' : List Call) : Prop :=
  ∀ (n : Nat) (c : Call), calls[n]? = some c → ∃ c', calls'[n]? = some c' ∧ c'.job = c.job

theorem Known.keep {calls calls' : List Call} {job : QueuedJob} (known : Known calls job)
    (keeps : Keeps calls calls') : Known calls' job := by
  obtain ⟨c, found, same⟩ := known
  obtain ⟨c', found', same'⟩ := keeps _ c found
  exact ⟨c', found', same'.trans same⟩

/-- The account of one call: a job in `buffered` buffer places, `waiting` waiting places,
`taken` hands and `running` workers. -/
structure Balanced (c : Call) (buffered waiting taken running : Nat) : Prop where
  once : buffered + taken + c.started = if c.phase = .accepted then 1 else 0
  parked : waiting = if c.phase = .parked true then 1 else 0
  ran : c.started = c.finished + running

def Account (r : Runtime) (n : Nat) (c : Call) : Prop :=
  Balanced c (r.jobs.buffer.countP (·.of n)) (r.jobs.waiting.countP (·.of n))
    (r.workers.countP (·.takes n)) (r.workers.countP (·.runs n))

structure Accounts (r : Runtime) : Prop where
  own : ∀ (n : Nat) (c : Call), r.calls[n]? = some c → c.job.call = n
  buffered : ∀ job ∈ r.jobs.buffer, Known r.calls job
  waiting : ∀ job ∈ r.jobs.waiting, Known r.calls job
  held : ∀ w ∈ r.workers, ∀ job ∈ w.job?, Known r.calls job
  balanced : ∀ (n : Nat) (c : Call), r.calls[n]? = some c → Account r n c

section

variable {calls : List Call} {n m : Nat} {c d x : Call}

theorem getElem?_set_cases (found : calls[n]? = some c) (now : (calls.set n d)[m]? = some x) :
    (m = n ∧ x = d) ∨ (m ≠ n ∧ calls[m]? = some x) := by
  rw [List.getElem?_set] at now
  split at now
  next same =>
    subst same
    rw [if_pos (List.getElem?_eq_some_iff.mp found).choose] at now
    exact Or.inl ⟨rfl, (Option.some.inj now).symm⟩
  next other => exact Or.inr ⟨fun same => other same.symm, now⟩

theorem getElem?_append_cases (now : (calls ++ [d])[m]? = some x) :
    calls[m]? = some x ∨ (m = calls.length ∧ x = d) := by
  rw [List.getElem?_append] at now
  split at now
  · exact Or.inl now
  next past =>
    have last := (List.getElem?_eq_some_iff.mp now).choose
    rw [List.length_singleton] at last
    have here : m = calls.length := by omega
    subst here
    rw [Nat.sub_self] at now
    exact Or.inr ⟨rfl, (Option.some.inj now).symm⟩

theorem Keeps.set (found : calls[n]? = some c) (same : d.job = c.job) :
    Keeps calls (calls.set n d) := by
  intro m x there
  by_cases here : m = n
  · subst here
    rw [found] at there
    cases there
    have inside := (List.getElem?_eq_some_iff.mp found).choose
    exact ⟨d, List.getElem?_set_self inside, same⟩
  · refine ⟨x, ?_, rfl⟩
    rw [List.getElem?_set_ne (fun same => here same.symm)]
    exact there

theorem Keeps.append : Keeps calls (calls ++ [d]) := by
  intro m x there
  have inside := (List.getElem?_eq_some_iff.mp there).choose
  exact ⟨x, (List.getElem?_append_left inside).trans there, rfl⟩

theorem Keeps.map {f : Call → Call} (same : ∀ c, (f c).job = c.job) :
    Keeps calls (calls.map f) := by
  intro m x there
  refine ⟨f x, ?_, same x⟩
  rw [List.getElem?_map, there]
  rfl

theorem not_known_past {job : QueuedJob} (known : Known calls job) : job.of calls.length = false := by
  obtain ⟨c, found, -⟩ := known
  have inside := (List.getElem?_eq_some_iff.mp found).choose
  exact decide_eq_false (Nat.ne_of_lt inside)

theorem countP_past {jobs : List QueuedJob} (known : ∀ job ∈ jobs, Known calls job) :
    jobs.countP (·.of calls.length) = 0 := by
  rw [List.countP_eq_zero]
  intro job member
  rw [not_known_past (known job member)]
  nofun

end

section

variable {r : Runtime} {n w : Nat} {c : Call}

namespace Accounts

private theorem past (h : Accounts r) :
    r.jobs.buffer.countP (·.of r.calls.length) = 0 ∧
    r.jobs.waiting.countP (·.of r.calls.length) = 0 ∧
    r.workers.countP (·.takes r.calls.length) = 0 ∧
    r.workers.countP (·.runs r.calls.length) = 0 := by
  refine ⟨countP_past h.buffered, countP_past h.waiting, ?_, ?_⟩
  · rw [List.countP_eq_zero]
    intro worker member
    cases worker with
    | took job => exact Bool.eq_false_iff.mp (not_known_past (h.held _ member job rfl))
    | _ => exact Bool.false_ne_true
  · rw [List.countP_eq_zero]
    intro worker member
    cases worker with
    | running job => exact Bool.eq_false_iff.mp (not_known_past (h.held _ member job rfl))
    | _ => exact Bool.false_ne_true

theorem frame {r' : Runtime} (h : Accounts r) (jobs : r'.jobs.buffer = r.jobs.buffer)
    (parked : r'.jobs.waiting = r.jobs.waiting) (calls : r'.calls = r.calls)
    (workers : r'.workers = r.workers) : Accounts r' := by
  constructor
  · rw [calls]
    exact h.own
  · rw [jobs, calls]
    exact h.buffered
  · rw [parked, calls]
    exact h.waiting
  · rw [workers, calls]
    exact h.held
  · rw [calls]
    intro n c found
    unfold Account
    rw [jobs, parked, workers]
    exact h.balanced n c found

theorem begin (h : Accounts r) (queueName jobName : String) (now : Int)
    {phase : Phase} (accepts : phase ≠ .accepted) (waits : phase ≠ .parked true) :
    Accounts (r.begin queueName jobName now phase) := by
  constructor
  · intro m x there
    rcases getElem?_append_cases there with old | ⟨here, rfl⟩
    · exact h.own m x old
    · exact here.symm
  · exact fun job member => (h.buffered job member).keep .append
  · exact fun job member => (h.waiting job member).keep .append
  · exact fun worker member job has => (h.held worker member job has).keep .append
  · intro m x there
    rcases getElem?_append_cases there with old | ⟨here, rfl⟩
    · exact h.balanced m x old
    · subst here
      obtain ⟨buffered, waiting, taken, running⟩ := h.past
      show Balanced _ (r.jobs.buffer.countP (·.of r.calls.length))
        (r.jobs.waiting.countP (·.of r.calls.length)) (r.workers.countP (·.takes r.calls.length))
        (r.workers.countP (·.runs r.calls.length))
      rw [buffered, waiting, taken, running]
      exact ⟨(if_neg accepts).symm, (if_neg waits).symm, rfl⟩

theorem setPhase (h : Accounts r) (found : r.calls[n]? = some c) {phase : Phase}
    (accepted : c.phase ≠ .accepted) (parked : c.phase ≠ .parked true)
    (accepts : phase ≠ .accepted) (parks : phase ≠ .parked true) :
    Accounts (r.setPhase n c phase) := by
  have keeps : Keeps r.calls (r.calls.set n { c with phase }) := .set found rfl
  constructor
  · intro m x there
    rcases getElem?_set_cases found there with ⟨rfl, rfl⟩ | ⟨-, old⟩
    · exact h.own m c found
    · exact h.own m x old
  · exact fun job member => (h.buffered job member).keep keeps
  · exact fun job member => (h.waiting job member).keep keeps
  · exact fun worker member job has => (h.held worker member job has).keep keeps
  · intro m x there
    rcases getElem?_set_cases found there with ⟨rfl, rfl⟩ | ⟨-, old⟩
    · have before := h.balanced m c found
      constructor
      · rw [if_neg accepts, ← if_neg (α := Nat) (t := 1) (e := 0) accepted]
        exact before.once
      · rw [if_neg parks, ← if_neg (α := Nat) (t := 1) (e := 0) parked]
        exact before.parked
      · exact before.ran
    · exact h.balanced m x old

theorem send (h : Accounts r) (found : r.calls[n]? = some c) (accepted : c.phase ≠ .accepted)
    (parked : c.phase ≠ .parked true) :
    Accounts { r.setPhase n c .accepted with
      jobs := { r.jobs with buffer := r.jobs.buffer ++ [c.job] } } := by
  have keeps : Keeps r.calls (r.calls.set n { c with phase := .accepted }) := .set found rfl
  have own := h.own n c found
  constructor
  · intro m x there
    rcases getElem?_set_cases found there with ⟨rfl, rfl⟩ | ⟨-, old⟩
    · exact own
    · exact h.own m x old
  · intro job member
    rcases List.mem_append.mp member with old | new
    · exact (h.buffered job old).keep keeps
    · obtain rfl := List.mem_singleton.mp new
      exact Known.keep ⟨c, by rw [own]; exact found, rfl⟩ keeps
  · exact fun job member => (h.waiting job member).keep keeps
  · exact fun worker member job has => (h.held worker member job has).keep keeps
  · intro m x there
    have count : (r.jobs.buffer ++ [c.job]).countP (·.of m) =
        r.jobs.buffer.countP (·.of m) + (decide (n = m)).toNat := by
      rw [countP_last, QueuedJob.of, own]
    rcases getElem?_set_cases found there with ⟨rfl, rfl⟩ | ⟨other, old⟩
    · have before := h.balanced m c found
      have once := before.once
      rw [if_neg accepted] at once
      constructor
      · rw [count, decide_eq_true rfl, Bool.toNat_true]
        show _ + 1 + r.workers.countP (·.takes m) + c.started = 1
        omega
      · rw [if_neg (by nofun)]
        have parked' := before.parked
        rwa [if_neg parked] at parked'
      · exact before.ran
    · have before := h.balanced m x old
      constructor
      · rw [count, decide_eq_false fun same => other same.symm]
        exact before.once
      · exact before.parked
      · exact before.ran

theorem park (h : Accounts r) (found : r.calls[n]? = some c) (accepted : c.phase ≠ .accepted)
    (parked : c.phase ≠ .parked true) :
    Accounts { r.setPhase n c (.parked true) with jobs := r.jobs.park c.job } := by
  have keeps : Keeps r.calls (r.calls.set n { c with phase := .parked true }) := .set found rfl
  have own := h.own n c found
  constructor
  · intro m x there
    rcases getElem?_set_cases found there with ⟨rfl, rfl⟩ | ⟨-, old⟩
    · exact own
    · exact h.own m x old
  · exact fun job member => (h.buffered job member).keep keeps
  · intro job member
    rcases List.mem_append.mp member with old | new
    · exact (h.waiting job old).keep keeps
    · obtain rfl := List.mem_singleton.mp new
      exact Known.keep ⟨c, by rw [own]; exact found, rfl⟩ keeps
  · exact fun worker member job has => (h.held worker member job has).keep keeps
  · intro m x there
    have count : (r.jobs.waiting ++ [c.job]).countP (·.of m) =
        r.jobs.waiting.countP (·.of m) + (decide (n = m)).toNat := by
      rw [countP_last, QueuedJob.of, own]
    rcases getElem?_set_cases found there with ⟨rfl, rfl⟩ | ⟨other, old⟩
    · have before := h.balanced m c found
      have once := before.once
      have waiting := before.parked
      rw [if_neg accepted] at once
      rw [if_neg parked] at waiting
      constructor
      · rw [if_neg (by nofun)]
        exact once
      · show (r.jobs.waiting ++ [c.job]).countP (·.of m) = 1
        rw [count, decide_eq_true rfl, Bool.toNat_true, waiting]
      · exact before.ran
    · have before := h.balanced m x old
      constructor
      · exact before.once
      · show (r.jobs.waiting ++ [c.job]).countP (·.of m) = _
        rw [count, decide_eq_false fun same => other same.symm]
        exact before.parked
      · exact before.ran

theorem setWorker (h : Accounts r) {worker worker' : Worker} (found : r.workers[w]? = some worker)
    (free : worker.job? = none) (free' : worker'.job? = none) :
    Accounts (r.setWorker w worker') := by
  constructor
  · exact h.own
  · exact h.buffered
  · exact h.waiting
  · intro other member job has
    rcases List.mem_or_eq_of_mem_set member with old | rfl
    · exact h.held other old job has
    · rw [free'] at has
      cases has
  · intro m x there
    have before := h.balanced m x there
    have takes : ∀ v : Worker, v.job? = none → v.takes m = false ∧ v.runs m = false := by
      intro v none
      cases v <;> first | exact ⟨rfl, rfl⟩ | cases none
    have taken := countP_set_add (Worker.takes m) (a := worker') found
    have running := countP_set_add (Worker.runs m) (a := worker') found
    simp only [takes worker free, takes worker' free', Bool.toNat_false, Nat.add_zero]
      at taken running
    constructor
    · show _ + (r.workers.set w worker').countP (·.takes m) + _ = _
      rw [taken]
      exact before.once
    · exact before.parked
    · show _ = _ + (r.workers.set w worker').countP (·.runs m)
      rw [running]
      exact before.ran

variable {job : QueuedJob}

theorem receive (h : Accounts r) (found : r.workers[w]? = some .receiving) {rest : List QueuedJob}
    (buffer : r.jobs.buffer = job :: rest) :
    Accounts { r.setWorker w (.took job) with jobs := { r.jobs with buffer := rest } } := by
  have known : Known r.calls job := h.buffered job (by rw [buffer]; exact List.mem_cons_self)
  constructor
  · exact h.own
  · exact fun job member => h.buffered job (by rw [buffer]; exact List.mem_cons_of_mem _ member)
  · exact h.waiting
  · intro other member j has
    rcases List.mem_or_eq_of_mem_set member with old | rfl
    · exact h.held other old j has
    · obtain rfl := Option.some.inj has
      exact known
  · intro m x there
    have before := h.balanced m x there
    have taken : (r.workers.set w (.took job)).countP (·.takes m) =
        r.workers.countP (·.takes m) + (job.of m).toNat :=
      countP_set_add (Worker.takes m) (a := .took job) found
    have running : (r.workers.set w (.took job)).countP (·.runs m) =
        r.workers.countP (·.runs m) :=
      countP_set_add (Worker.runs m) (a := .took job) found
    have once := before.once
    rw [buffer, countP_first] at once
    constructor
    · show rest.countP (·.of m) + (r.workers.set w (.took job)).countP (·.takes m) + _ = _
      rw [taken]
      omega
    · exact before.parked
    · show _ = _ + (r.workers.set w (.took job)).countP (·.runs m)
      rw [running]
      exact before.ran

theorem parked (h : Accounts r) (member : job ∈ r.jobs.waiting) :
    ∃ c, r.calls[job.call]? = some c ∧ c.job = job ∧ c.phase = .parked true ∧ c.started = 0 := by
  obtain ⟨c, found, same⟩ := h.waiting job member
  have account := h.balanced job.call c found
  have counted : 0 < r.jobs.waiting.countP (·.of job.call) :=
    List.countP_pos_iff.mpr ⟨job, member, decide_eq_true rfl⟩
  have parked : c.phase = .parked true := by
    by_contra other
    have none := account.parked
    rw [if_neg other] at none
    omega
  have once := account.once
  rw [if_neg (by rw [parked]; nofun)] at once
  exact ⟨c, found, same, parked, by omega⟩

theorem promote (h : Accounts r) {more : List QueuedJob} (waiting : r.jobs.waiting = job :: more) :
    Accounts { r.wake (some job) with
      jobs := { r.jobs with buffer := r.jobs.buffer ++ [job], waiting := more } } := by
  have first : job ∈ r.jobs.waiting := by rw [waiting]; exact List.mem_cons_self
  obtain ⟨c, found, same, parked, -⟩ := h.parked first
  have keeps : Keeps r.calls (r.calls.set job.call { c with phase := .accepted }) :=
    .set found rfl
  have account := h.balanced job.call c found
  have self : job.of job.call = true := decide_eq_true rfl
  -- the job waits in one place
  have counted := account.parked
  rw [if_pos parked, waiting, countP_first, self, Bool.toNat_true] at counted
  have once := account.once
  rw [if_neg (by rw [parked]; nofun)] at once
  unfold Runtime.wake
  simp only [found]
  constructor
  · intro m x there
    rcases getElem?_set_cases found there with ⟨rfl, rfl⟩ | ⟨-, old⟩
    · exact h.own _ c found
    · exact h.own m x old
  · intro j member
    rcases List.mem_append.mp member with old | new
    · exact (h.buffered j old).keep keeps
    · obtain rfl := List.mem_singleton.mp new
      exact Known.keep ⟨c, found, same⟩ keeps
  · intro j member
    exact (h.waiting j (by rw [waiting]; exact List.mem_cons_of_mem _ member)).keep keeps
  · exact fun worker member j has => (h.held worker member j has).keep keeps
  · intro m x there
    rcases getElem?_set_cases found there with ⟨rfl, rfl⟩ | ⟨other, old⟩
    · constructor
      · show (r.jobs.buffer ++ [job]).countP (·.of job.call) +
          r.workers.countP (·.takes job.call) + c.started = 1
        rw [countP_last, self, Bool.toNat_true]
        omega
      · show more.countP (·.of job.call) = 0
        omega
      · exact account.ran
    · have before := h.balanced m x old
      have elsewhere : job.of m = false := decide_eq_false fun here => other here.symm
      constructor
      · show (r.jobs.buffer ++ [job]).countP (·.of m) + _ + _ = _
        rw [countP_last, elsewhere]
        exact before.once
      · have waits := before.parked
        rw [waiting, countP_first, elsewhere] at waits
        exact waits
      · exact before.ran

theorem start (h : Accounts r) (found : r.workers[w]? = some (.took job))
    (owner : r.calls[job.call]? = some c) :
    Accounts { r.setWorker w (.running job) with
      calls := r.calls.set job.call { c with started := c.started + 1 } } := by
  have keeps : Keeps r.calls (r.calls.set job.call { c with started := c.started + 1 }) :=
    .set owner rfl
  constructor
  · intro m x there
    rcases getElem?_set_cases owner there with ⟨rfl, rfl⟩ | ⟨-, old⟩
    · exact h.own _ c owner
    · exact h.own m x old
  · exact fun j member => (h.buffered j member).keep keeps
  · exact fun j member => (h.waiting j member).keep keeps
  · intro other member j has
    rcases List.mem_or_eq_of_mem_set member with old | rfl
    · exact (h.held other old j has).keep keeps
    · obtain rfl := Option.some.inj has
      exact (h.held _ (List.mem_of_getElem? found) job rfl).keep keeps
  · intro m x there
    have taken : (r.workers.set w (.running job)).countP (·.takes m) + (job.of m).toNat =
        r.workers.countP (·.takes m) :=
      countP_set_add (Worker.takes m) (a := .running job) found
    have running : (r.workers.set w (.running job)).countP (·.runs m) =
        r.workers.countP (·.runs m) + (job.of m).toNat :=
      countP_set_add (Worker.runs m) (a := .running job) found
    rcases getElem?_set_cases owner there with ⟨rfl, rfl⟩ | ⟨other, old⟩
    · have before := h.balanced _ c owner
      have self : job.of job.call = true := decide_eq_true rfl
      rw [self, Bool.toNat_true] at taken running
      have once := before.once
      have ran := before.ran
      constructor
      · show _ + (r.workers.set w (.running job)).countP (·.takes job.call) + (c.started + 1) = _
        rw [← once]
        show r.jobs.buffer.countP _ + _ + _ = _
        omega
      · exact before.parked
      · show c.started + 1 = c.finished + (r.workers.set w (.running job)).countP _
        omega
    · have before := h.balanced m x old
      have elsewhere : job.of m = false := decide_eq_false fun here => other here.symm
      rw [elsewhere] at taken running
      constructor
      · show _ + (r.workers.set w (.running job)).countP (·.takes m) + _ = _
        rw [show (r.workers.set w (.running job)).countP (·.takes m) =
          r.workers.countP (·.takes m) from taken]
        exact before.once
      · exact before.parked
      · show _ = _ + (r.workers.set w (.running job)).countP (·.runs m)
        rw [running]
        exact before.ran

theorem finish (h : Accounts r) (found : r.workers[w]? = some (.running job))
    (owner : r.calls[job.call]? = some c) :
    Accounts { r.setWorker w .receiving with
      calls := r.calls.set job.call { c with finished := c.finished + 1 } } := by
  have keeps : Keeps r.calls (r.calls.set job.call { c with finished := c.finished + 1 }) :=
    .set owner rfl
  constructor
  · intro m x there
    rcases getElem?_set_cases owner there with ⟨rfl, rfl⟩ | ⟨-, old⟩
    · exact h.own _ c owner
    · exact h.own m x old
  · exact fun j member => (h.buffered j member).keep keeps
  · exact fun j member => (h.waiting j member).keep keeps
  · intro other member j has
    rcases List.mem_or_eq_of_mem_set member with old | rfl
    · exact (h.held other old j has).keep keeps
    · cases has
  · intro m x there
    have taken : (r.workers.set w .receiving).countP (·.takes m) =
        r.workers.countP (·.takes m) :=
      countP_set_add (Worker.takes m) (a := .receiving) found
    have running : (r.workers.set w .receiving).countP (·.runs m) + (job.of m).toNat =
        r.workers.countP (·.runs m) :=
      countP_set_add (Worker.runs m) (a := .receiving) found
    have same : Balanced x (r.jobs.buffer.countP (·.of m)) (r.jobs.waiting.countP (·.of m))
        (r.workers.countP (·.takes m)) ((r.workers.set w .receiving).countP (·.runs m)) := by
      rcases getElem?_set_cases owner there with ⟨rfl, rfl⟩ | ⟨other, old⟩
      · have before := h.balanced _ c owner
        have self : job.of job.call = true := decide_eq_true rfl
        rw [self, Bool.toNat_true] at running
        refine ⟨before.once, before.parked, ?_⟩
        have ran := before.ran
        show c.started = c.finished + 1 + (r.workers.set w .receiving).countP _
        omega
      · have before := h.balanced m x old
        have elsewhere : job.of m = false := decide_eq_false fun here => other here.symm
        rw [elsewhere] at running
        refine ⟨before.once, before.parked, ?_⟩
        rw [show (r.workers.set w .receiving).countP (·.runs m) =
          r.workers.countP (·.runs m) from running]
        exact before.ran
    unfold Account
    show Balanced x _ _ ((r.workers.set w .receiving).countP (·.takes m)) _
    rw [taken]
    exact same

theorem leave (h : Accounts r) {f : Call → Call} {jobs : Chan QueuedJob}
    (buffer : jobs.buffer = r.jobs.buffer) (empty : jobs.waiting = [])
    (job : ∀ c, (f c).job = c.job) (started : ∀ c, (f c).started = c.started)
    (finished : ∀ c, (f c).finished = c.finished)
    (accepts : ∀ c, (f c).phase = .accepted ↔ c.phase = .accepted)
    (parks : ∀ c, (f c).phase ≠ .parked true) :
    Accounts { r with jobs, calls := r.calls.map f } := by
  have keeps : Keeps r.calls (r.calls.map f) := .map job
  have image : ∀ (m : Nat) (x : Call), (r.calls.map f)[m]? = some x →
      ∃ c, r.calls[m]? = some c ∧ f c = x := by
    intro m x there
    rw [List.getElem?_map, Option.map_eq_some_iff] at there
    exact there
  constructor
  · intro m x there
    obtain ⟨c, found, rfl⟩ := image m x there
    rw [job]
    exact h.own m c found
  · intro j member
    rw [buffer] at member
    exact (h.buffered j member).keep keeps
  · intro j member
    rw [empty] at member
    cases member
  · exact fun worker member j has => (h.held worker member j has).keep keeps
  · intro m x there
    obtain ⟨c, found, rfl⟩ := image m x there
    have before := h.balanced m c found
    constructor
    · rw [buffer, started, if_congr (accepts c) rfl rfl]
      exact before.once
    · rw [empty, if_neg (parks c)]
      rfl
    · rw [started, finished]
      exact before.ran

end Accounts

end

end ForestPanel.Queue
