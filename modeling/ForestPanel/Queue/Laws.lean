import ForestPanel.Queue.Accounts

/-!
# What the queue promises

The pending statistics of a queue count its accepted jobs that are not started and,
besides, its calls of `Enqueue` that have counted their job and not returned. No
accepted job is lost or run twice and no rejected one is run. A producer that holds
the channel and reaches its select after the channel was closed may panic; a worker
that begins after the channel was detached waits forever.
-/
namespace ForestPanel.Queue

open Channel Transition

def Call.notStarted (q : String) (c : Call) : Bool :=
  decide (c.job.queueName = q ∧ c.phase = .accepted ∧ c.started = 0)

/-- An `Enqueue` of the queue that has counted its job and has not returned. -/
def Call.underWay (q : String) (c : Call) : Bool :=
  decide (c.job.queueName = q) &&
    match c.phase with
    | .counted _ => true
    | .parked _ => true
    | .stopping => true
    | .panicked counted => counted
    | _ => false

namespace Runtime

/-- The `Length` of the queue in a `Snapshot`. -/
def pending (r : Runtime) (q : String) : Nat := (r.queues q).pendingTimes.length

def notStarted (r : Runtime) (q : String) : Nat := r.calls.countP (·.notStarted q)

def underWay (r : Runtime) (q : String) : Nat := r.calls.countP (·.underWay q)

end Runtime

/-- The queue of the call has a time of it in `pendingTimes`. -/
def Call.listed (q : String) (c : Call) : Bool := c.notStarted q || c.underWay q

def Call.timed (c : Call) : Bool :=
  match c.phase with
  | .accepted => decide (c.started = 0)
  | .counted _ => true
  | .parked _ => true
  | .stopping => true
  | .panicked counted => counted
  | _ => false

theorem Call.listed_eq (q : String) (c : Call) :
    c.listed q = (decide (c.job.queueName = q) && c.timed) := by
  unfold listed notStarted underWay timed
  by_cases same : c.job.queueName = q
  · cases phase : c.phase <;> simp [same]
  · simp [same]

def Statistics (r : Runtime) : Prop := ∀ q, r.pending q = r.calls.countP (·.listed q)

section

variable {r r' : Runtime} {n : Nat} {c c' : Call} {job : QueuedJob} {q : String}

private theorem pending_update (name : String) (state : QueueState) :
    ({ r with queues := Function.update r.queues name state } : Runtime).pending q =
      if q = name then state.pendingTimes.length else r.pending q := by
  show (Function.update r.queues name state q).pendingTimes.length = _
  rw [Function.update_apply]
  split <;> rfl

private theorem pending_addPending :
    (r.addPending job).pending q = r.pending q + (decide (job.queueName = q)).toNat := by
  rw [Runtime.addPending, pending_update]
  split
  next same =>
    subst same
    rw [decide_eq_true rfl, List.length_append]
    rfl
  next other => rw [decide_eq_false fun here => other here.symm, Bool.toNat_false, Nat.add_zero]

private theorem pending_shorter {state : QueueState} (counted : 0 < r.pending job.queueName)
    (times : state.pendingTimes = (r.queues job.queueName).pendingTimes.tail) :
    ({ r with queues := Function.update r.queues job.queueName state } : Runtime).pending q +
      (decide (job.queueName = q)).toNat = r.pending q := by
  rw [pending_update]
  split
  next same =>
    subst same
    rw [decide_eq_true rfl, times, List.length_tail]
    exact Nat.sub_add_cancel counted
  next other => rw [decide_eq_false fun here => other here.symm, Bool.toNat_false, Nat.add_zero]

private theorem pending_markFinished :
    (r.markFinished job.queueName).pending q = r.pending q := by
  rw [Runtime.markFinished, pending_update]
  split
  next same => rw [same, Runtime.pending]
  · rfl

namespace Statistics

theorem change (h : Statistics r) (found : r.calls[n]? = some c)
    (calls : r'.calls = r.calls.set n c')
    (times : ∀ q, r'.pending q + (c.listed q).toNat = r.pending q + (c'.listed q).toNat) :
    Statistics r' := by
  intro q
  have counts := countP_set_add (Call.listed q) (a := c') found
  have before := h q
  have now := times q
  rw [calls]
  have eta : ∀ l : List Call, l.countP (·.listed q) = l.countP (Call.listed q) := fun _ => rfl
  rw [eta] at before ⊢
  omega

theorem keep (h : Statistics r) (found : r.calls[n]? = some c)
    (calls : r'.calls = r.calls.set n c') (queues : r'.queues = r.queues)
    (same : c'.job = c.job) (timed : c'.timed = c.timed) : Statistics r' := by
  refine h.change found calls fun q => ?_
  unfold Runtime.pending
  rw [queues, Call.listed_eq, Call.listed_eq, same, timed]

theorem frame (h : Statistics r) (queues : r'.queues = r.queues) (calls : r'.calls = r.calls) :
    Statistics r' := by
  intro q
  unfold Runtime.pending
  rw [queues, calls]
  exact h q

theorem append (h : Statistics r) (calls : r'.calls = r.calls ++ [c])
    (times : ∀ q, r'.pending q = r.pending q + (c.listed q).toNat) : Statistics r' := by
  intro q
  rw [times, calls, countP_last, h q]

theorem map (h : Statistics r) {f : Call → Call} (queues : r'.queues = r.queues)
    (calls : r'.calls = r.calls.map f) (same : ∀ c q, (f c).listed q = c.listed q) :
    Statistics r' := by
  intro q
  unfold Runtime.pending
  rw [queues, calls, List.countP_map, show (fun c => Call.listed q c) ∘ f = Call.listed q from
    funext fun c => same c q]
  exact h q

theorem counted (h : Statistics r) (found : r.calls[n]? = some c)
    (listed : c.listed c.job.queueName = true) : 0 < r.pending c.job.queueName := by
  rw [h c.job.queueName]
  exact List.countP_pos_iff.mpr ⟨c, List.mem_of_getElem? found, listed⟩

theorem total (h : Statistics r) (q : String) :
    r.pending q = r.notStarted q + r.underWay q := by
  rw [h q]
  unfold Runtime.notStarted Runtime.underWay
  induction r.calls with
  | nil => rfl
  | cons c rest ih =>
    rw [countP_first, countP_first, countP_first, ih]
    have apart : c.notStarted q = true → c.underWay q = false := by
      intro accepted
      obtain ⟨-, phase, -⟩ := of_decide_eq_true accepted
      unfold Call.underWay
      rw [phase, Bool.and_false]
    unfold Call.listed
    cases waits : c.notStarted q with
    | true =>
      rw [apart waits]
      simp only [Bool.or_false, Bool.toNat_true, Bool.toNat_false]
      omega
    | false =>
      simp only [Bool.false_or, Bool.toNat_false]
      omega

end Statistics

end

structure Flags (r : Runtime) : Prop where
  attached : r.started = r.attached
  cancelled : r.cancelled = true → r.attached = false
  closed : r.jobs.closed = true → r.cancelled = true
  released : r.cancelled = true → r.jobs.waiting = []
  capacity : 0 < r.jobs.capacity
  workers : r.workers ≠ []
  /-- `Shutdown` holds the channel only after it has detached it. -/
  detached : ∀ s ∈ r.shutdowns, s.phase = .detached → r.attached = false
  cancels : ∀ s ∈ r.shutdowns, s.phase = .cancelled → r.cancelled = true
  /-- A worker ends when the channel is closed and empty. -/
  done : ∀ w ∈ r.workers, w = .done → r.jobs.closed = true ∧ r.jobs.buffer = []
  drained : ∀ s ∈ r.shutdowns, s.phase = .drained → ∀ w ∈ r.workers, w = .done

structure Inv (r : Runtime) : Prop where
  accounts : Accounts r
  statistics : Statistics r
  flags : Flags r

namespace Flags

variable {r r' : Runtime} {n w : Nat}

theorem open_of_attached (h : Flags r) (attached : r.attached = true) :
    r.jobs.closed = false ∧ r.cancelled = false := by
  have live : r.cancelled = false := by
    cases ends : r.cancelled with
    | false => rfl
    | true => exact absurd attached (by rw [h.cancelled ends]; nofun)
  refine ⟨?_, live⟩
  cases ends : r.jobs.closed with
  | false => rfl
  | true => exact absurd (h.closed ends) (by rw [live]; nofun)

theorem frame (h : Flags r) (started : r'.started = r.started) (attached : r'.attached = r.attached)
    (cancelled : r'.cancelled = r.cancelled) (jobs : r'.jobs = r.jobs)
    (workers : r'.workers = r.workers) (shutdowns : r'.shutdowns = r.shutdowns) : Flags r' := by
  constructor
  · rw [started, attached]
    exact h.attached
  · rw [cancelled, attached]
    exact h.cancelled
  · rw [cancelled, jobs]
    exact h.closed
  · rw [cancelled, jobs]
    exact h.released
  · rw [jobs]
    exact h.capacity
  · rw [workers]
    exact h.workers
  · rw [shutdowns, attached]
    exact h.detached
  · rw [shutdowns, cancelled]
    exact h.cancels
  · rw [workers, jobs]
    exact h.done
  · rw [shutdowns, workers]
    exact h.drained

theorem jobs (h : Flags r) {jobs : Chan QueuedJob} (isOpen : r.jobs.closed = false)
    (closed : jobs.closed = false) (capacity : jobs.capacity = r.jobs.capacity)
    (waiting : r.cancelled = true → jobs.waiting = []) : Flags { r with jobs } := by
  constructor
  · exact h.attached
  · exact h.cancelled
  · intro ends
    rw [closed] at ends
    cases ends
  · exact waiting
  · show 0 < jobs.capacity
    rw [capacity]
    exact h.capacity
  · exact h.workers
  · exact h.detached
  · exact h.cancels
  · intro w member ended
    have ends := (h.done w member ended).1
    rw [isOpen] at ends
    cases ends
  · exact h.drained

theorem worker (h : Flags r) {worker worker' : Worker} {jobs : Chan QueuedJob}
    (found : r.workers[w]? = some worker) (live : worker ≠ .done)
    (closed : jobs.closed = r.jobs.closed) (capacity : jobs.capacity = r.jobs.capacity)
    (waiting : r.jobs.waiting = [] → jobs.waiting = [])
    (buffer : r.jobs.buffer = [] → jobs.buffer = [])
    (ended : worker' = .done → jobs.closed = true ∧ jobs.buffer = []) :
    Flags { r.setWorker w worker' with jobs } := by
  constructor
  · exact h.attached
  · exact h.cancelled
  · intro ends
    exact h.closed (closed ▸ ends)
  · exact fun ends => waiting (h.released ends)
  · show 0 < jobs.capacity
    rw [capacity]
    exact h.capacity
  · intro none
    have empty : (r.workers.set w worker').length = 0 := by
      rw [show r.workers.set w worker' = [] from none]
      rfl
    rw [List.length_set] at empty
    exact h.workers (List.eq_nil_of_length_eq_zero empty)
  · exact h.detached
  · exact h.cancels
  · intro other member ended'
    rcases List.mem_or_eq_of_mem_set member with old | rfl
    · obtain ⟨ends, empty⟩ := h.done other old ended'
      exact ⟨closed.trans ends, buffer empty⟩
    · exact ended ended'
  · intro s member drained
    exact absurd (h.drained s member drained _ (List.mem_of_getElem? found)) live

theorem shutdown (h : Flags r) {s : Shutdown} {phase : Stopping}
    (started : r'.started = r'.attached) (off : r'.attached = true → r.attached = true)
    (ends : r.cancelled = true → r'.cancelled = true)
    (cancelled : r'.cancelled = true → r'.attached = false ∧ r'.jobs.waiting = [])
    (closed : r'.jobs.closed = true → r'.cancelled = true)
    (capacity : r'.jobs.capacity = r.jobs.capacity) (workers : r'.workers = r.workers)
    (buffer : r'.jobs.buffer = r.jobs.buffer) (stays : r.jobs.closed = true → r'.jobs.closed = true)
    (shutdowns : r'.shutdowns = r.shutdowns.set n { s with phase })
    (detached : phase = .detached → r'.attached = false)
    (cancels : phase = .cancelled → r'.cancelled = true)
    (drained : phase = .drained → ∀ w ∈ r.workers, w = .done) : Flags r' := by
  have others : ∀ t ∈ r'.shutdowns, t ∈ r.shutdowns ∨ t.phase = phase := by
    intro t member
    rw [shutdowns] at member
    rcases List.mem_or_eq_of_mem_set member with old | rfl
    · exact Or.inl old
    · exact Or.inr rfl
  constructor
  · exact started
  · exact fun now => (cancelled now).1
  · exact closed
  · exact fun now => (cancelled now).2
  · rw [capacity]
    exact h.capacity
  · rw [workers]
    exact h.workers
  · intro t member holds
    rcases others t member with old | here
    · have was := h.detached t old holds
      cases now : r'.attached with
      | false => rfl
      | true => exact absurd (off now) (by rw [was]; nofun)
    · exact detached (here ▸ holds)
  · intro t member holds
    rcases others t member with old | here
    · exact ends (h.cancels t old holds)
    · exact cancels (here ▸ holds)
  · intro w member ended
    rw [workers] at member
    obtain ⟨was, empty⟩ := h.done w member ended
    exact ⟨stays was, buffer.trans empty⟩
  · intro t member holds
    rw [workers]
    rcases others t member with old | here
    · exact h.drained t old holds
    · exact drained (here ▸ holds)

end Flags

namespace Inv

variable {r : Runtime}

private theorem begin (h : Inv r) (queueName jobName : String) (now : Int) {phase : Phase}
    (accepts : phase ≠ .accepted) (waits : phase ≠ .parked true)
    (timed : ∀ job, (⟨job, phase, 0, 0⟩ : Call).timed = false) :
    Inv (r.begin queueName jobName now phase) := by
  refine ⟨h.accounts.begin queueName jobName now accepts waits, ?_,
    h.flags.frame rfl rfl rfl rfl rfl rfl⟩
  apply h.statistics.append rfl
  intro q
  rw [Call.listed_eq, timed, Bool.and_false]
  rfl

theorem enqueue (h : Inv r) (queueName jobName : String) (isNil : Bool) (now : Int) :
    Inv (r.enqueue queueName jobName isNil now) := by
  unfold Runtime.enqueue
  split
  · exact h.begin _ _ _ nofun nofun fun _ => rfl
  · split
    · exact h.begin _ _ _ nofun nofun fun _ => rfl
    · exact h.begin _ _ _ nofun nofun fun _ => rfl

theorem count (h : Inv r) (n : Nat) : Inv (r.count n) := by
  unfold Runtime.count
  split
  next job started finished found =>
    have queued : Accounts (r.addPending job) := h.accounts.frame rfl rfl rfl rfl
    refine ⟨queued.setPhase (n := n) (c := ⟨job, .checked, started, finished⟩) found nofun nofun
      nofun nofun, ?_, h.flags.frame rfl rfl rfl rfl rfl rfl⟩
    refine h.statistics.change found rfl fun q => ?_
    rw [Call.listed_eq, Call.listed_eq]
    show (r.addPending job).pending q + _ = _
    rw [pending_addPending]
    simp only [Call.timed, Bool.and_false, Bool.and_true, Bool.toNat_false, Nat.add_zero]
  · exact h

private theorem setPhase (h : Inv r) {n : Nat} {c : Call} (found : r.calls[n]? = some c)
    {phase : Phase} (accepted : c.phase ≠ .accepted) (parked : c.phase ≠ .parked true)
    (accepts : phase ≠ .accepted) (parks : phase ≠ .parked true)
    (timed : ({ c with phase } : Call).timed = c.timed) : Inv (r.setPhase n c phase) :=
  ⟨h.accounts.setPhase found accepted parked accepts parks,
    h.statistics.keep found rfl rfl rfl timed, h.flags.frame rfl rfl rfl rfl rfl rfl⟩

theorem select (h : Inv r) (n : Nat) (send : Bool) : Inv (r.select n send) := by
  unfold Runtime.select
  split
  next c found =>
    split
    next channel phase =>
      have accepted : c.phase ≠ .accepted := by rw [phase]; nofun
      have parked : c.phase ≠ .parked true := by rw [phase]; nofun
      have timed : c.timed = true := by rw [Call.timed, phase]
      have fresh : c.started = 0 := by
        have once := (h.accounts.balanced n c found).once
        rw [if_neg accepted] at once
        omega
      split
      · exact h.setPhase found accepted parked (by nofun) (by nofun) timed.symm
      next goes =>
        split
        next holds =>
          split
          next jobs sent =>
            obtain ⟨isOpen, rfl⟩ := Chan.trySend_sent sent
            refine ⟨h.accounts.send found accepted parked, ?_, ?_⟩
            · refine h.statistics.keep found rfl rfl rfl ?_
              rw [timed]
              exact decide_eq_true fresh
            · refine Flags.frame (r := { r with
                jobs := { r.jobs with buffer := r.jobs.buffer ++ [c.job] } }) ?_ rfl rfl rfl rfl
                rfl rfl
              exact h.flags.jobs isOpen isOpen rfl h.flags.released
          next full =>
            obtain ⟨isOpen, room⟩ := Chan.trySend_full full
            refine ⟨h.accounts.park found accepted parked,
              h.statistics.keep found rfl rfl rfl timed.symm, ?_⟩
            refine Flags.frame (r := { r with jobs := r.jobs.park c.job }) ?_ rfl rfl rfl rfl rfl rfl
            refine h.flags.jobs isOpen isOpen rfl fun ends => ?_
            -- where the context is done, the select waits for nothing
            have ready : r.jobs.sendReady = false := by
              rw [Chan.sendReady, isOpen, decide_eq_false (Nat.not_lt.mpr room)]
              rfl
            rw [ends, ready] at goes
            simp at goes
          · exact h.setPhase found accepted parked (by nofun) (by nofun) timed.symm
        · exact h.setPhase found accepted parked (by nofun) (by nofun) timed.symm
    · exact h
  · exact h

theorem giveBack (h : Inv r) (n : Nat) : Inv (r.giveBack n) := by
  unfold Runtime.giveBack
  split
  next job started finished found =>
    have counted : 0 < r.pending job.queueName := by
      refine h.statistics.counted found ?_
      rw [Call.listed_eq]
      simp only [decide_true, Bool.true_and]
      rfl
    have queued : Accounts (r.dequeuePending job.queueName) := h.accounts.frame rfl rfl rfl rfl
    refine ⟨queued.setPhase (n := n) (c := ⟨job, .stopping, started, finished⟩) found nofun nofun
      nofun nofun, ?_, h.flags.frame rfl rfl rfl rfl rfl rfl⟩
    refine h.statistics.change found rfl fun q => ?_
    rw [Call.listed_eq, Call.listed_eq]
    simp only [Call.timed, Bool.and_false, Bool.and_true, Bool.toNat_false, Nat.add_zero]
    exact pending_shorter counted rfl
  · exact h

private theorem trySend (h : Inv r) (queueName jobName : String) (now : Int)
    (isOpen : r.jobs.closed = false) :
    Inv { (r.addPending (r.newJob queueName jobName now)).begin queueName jobName now .accepted with
      jobs := { r.jobs with buffer := r.jobs.buffer ++ [r.newJob queueName jobName now] } } := by
  -- the call begins, and then the send takes place
  have started : Accounts (r.begin queueName jobName now .checked) :=
    h.accounts.begin queueName jobName now nofun nofun
  have found : (r.begin queueName jobName now .checked).calls[r.calls.length]? =
      some ⟨r.newJob queueName jobName now, .checked, 0, 0⟩ := List.getElem?_concat_length
  have sent := started.send found nofun nofun
  refine ⟨sent.frame rfl rfl ?_ rfl, ?_, ?_⟩
  · refine Eq.symm ((List.set_append_right _ _ (Nat.le_refl _)).trans ?_)
    rw [Nat.sub_self]
    rfl
  · refine h.statistics.append (c := ⟨r.newJob queueName jobName now, .accepted, 0, 0⟩) rfl
      fun q => ?_
    rw [Call.listed_eq, Call.timed, decide_eq_true rfl, Bool.and_true]
    exact pending_addPending
  · refine Flags.frame (r := { r with
      jobs := { r.jobs with buffer := r.jobs.buffer ++ [r.newJob queueName jobName now] } }) ?_ rfl
      rfl rfl rfl rfl rfl
    exact h.flags.jobs isOpen isOpen rfl h.flags.released

theorem tryEnqueue (h : Inv r) (queueName jobName : String) (isNil : Bool) (now : Int) :
    Inv (r.tryEnqueue queueName jobName isNil now) := by
  unfold Runtime.tryEnqueue
  dsimp only
  split
  · exact h.begin _ _ _ nofun nofun fun _ => rfl
  · split
    · exact h.begin _ _ _ nofun nofun fun _ => rfl
    · split
      next jobs sent =>
        obtain ⟨isOpen, rfl⟩ := Chan.trySend_sent sent
        exact h.trySend queueName jobName now isOpen
      · exact h.begin _ _ _ nofun nofun fun _ => rfl
      · exact h.begin _ _ _ nofun nofun fun _ => rfl

theorem range (h : Inv r) (w : Nat) : Inv (r.range w) := by
  unfold Runtime.range
  split
  next found =>
    refine ⟨h.accounts.setWorker found rfl (by split <;> rfl), h.statistics.frame rfl rfl,
      h.flags.worker found nofun rfl rfl id id ?_⟩
    split <;> nofun
  · exact h

theorem receive (h : Inv r) (w : Nat) : Inv (r.receive w) := by
  unfold Runtime.receive
  split
  next found =>
    split
    next job jobs sender received =>
      rcases Chan.receive_received received with
        ⟨rest, buffer, none, rfl, rfl⟩ | ⟨rest, b, more, buffer, waiting, rfl, rfl⟩
      · refine ⟨h.accounts.receive found buffer, h.statistics.frame rfl rfl,
          h.flags.worker found nofun rfl rfl id ?_ nofun⟩
        rw [buffer]
        nofun
      · have first : b ∈ r.jobs.waiting := by rw [waiting]; exact List.mem_cons_self
        obtain ⟨c, owner, -, parked, fresh⟩ := h.accounts.parked first
        have woken : r.wake (some b) = r.setPhase b.call c .accepted := by
          unfold Runtime.wake
          simp only [owner]
        rw [woken]
        refine ⟨?_, ?_, ?_⟩
        · have promoted := (h.accounts.receive found buffer).promote waiting
          unfold Runtime.wake at promoted
          simp only [Runtime.setWorker, owner] at promoted
          exact promoted
        · refine h.statistics.keep owner rfl rfl rfl ?_
          rw [Call.timed, Call.timed, parked]
          exact decide_eq_true fresh
        · refine Flags.frame (r := { r.setWorker w (.took job) with
            jobs := { r.jobs with buffer := rest ++ [b], waiting := more } }) ?_ rfl rfl rfl rfl rfl
            rfl
          refine h.flags.worker found nofun rfl rfl ?_ ?_ nofun
          · rw [waiting]
            nofun
          · rw [buffer]
            nofun
    next ended =>
      refine ⟨h.accounts.setWorker found rfl rfl, h.statistics.frame rfl rfl,
        h.flags.worker found nofun rfl rfl id id fun _ => Chan.receive_ended ended⟩
    · exact h
  · exact h

theorem startJob (h : Inv r) (w : Nat) : Inv (r.startJob w) := by
  unfold Runtime.startJob
  split
  next job found =>
    split
    next c owner =>
      obtain ⟨c', owner', same⟩ := h.accounts.held _ (List.mem_of_getElem? found) job rfl
      rw [owner] at owner'
      cases owner'
      have account := h.accounts.balanced job.call c owner
      have holds : 0 < r.workers.countP (·.takes job.call) :=
        List.countP_pos_iff.mpr ⟨_, List.mem_of_getElem? found, decide_eq_true rfl⟩
      -- a job in the hand of a worker is accepted and not started
      have once := account.once
      have accepted : c.phase = .accepted := by
        by_contra other
        rw [if_neg other] at once
        omega
      rw [if_pos accepted] at once
      have fresh : c.started = 0 := by omega
      have timed : c.timed = true := by rw [Call.timed, accepted]; exact decide_eq_true fresh
      have late : ({ c with started := c.started + 1 } : Call).timed = false := by
        rw [Call.timed, accepted]
        exact decide_eq_false (Nat.succ_ne_zero _)
      have counted : 0 < r.pending c.job.queueName := by
        refine h.statistics.counted owner ?_
        rw [Call.listed_eq, timed, decide_eq_true rfl]
        rfl
      refine ⟨(h.accounts.start found owner).frame rfl rfl rfl rfl, ?_, ?_⟩
      · refine h.statistics.change owner rfl fun q => ?_
        rw [Call.listed_eq, Call.listed_eq, timed, late, Bool.and_true, Bool.and_false, same]
        rw [same] at counted
        exact pending_shorter counted rfl
      · refine Flags.frame (r := { r.setWorker w (.running job) with jobs := r.jobs }) ?_ rfl rfl rfl
          rfl rfl rfl
        exact h.flags.worker found nofun rfl rfl id id nofun
    · exact h
  · exact h

theorem finishJob (h : Inv r) (w : Nat) : Inv (r.finishJob w) := by
  unfold Runtime.finishJob
  split
  next job found =>
    split
    next c owner =>
      refine ⟨(h.accounts.finish found owner).frame rfl rfl rfl rfl, ?_, ?_⟩
      · refine h.statistics.change owner rfl fun q => ?_
        rw [Call.listed_eq, Call.listed_eq]
        exact congrArg (· + _) pending_markFinished
      · refine Flags.frame (r := { r.setWorker w .receiving with jobs := r.jobs }) ?_ rfl rfl rfl
          rfl rfl rfl
        exact h.flags.worker found nofun rfl rfl id id nofun
    · exact h
  · exact h

theorem shutdown (h : Inv r) (context : Bool) : Inv (r.shutdown context) := by
  unfold Runtime.shutdown
  split
  · have called : ∀ s ∈ r.shutdowns ++ [⟨context, .called⟩],
        s ∈ r.shutdowns ∨ s = ⟨context, .called⟩ := by
      intro s member
      rcases List.mem_append.mp member with old | new
      · exact Or.inl old
      · exact Or.inr (List.mem_singleton.mp new)
    refine ⟨h.accounts.frame rfl rfl rfl rfl, h.statistics.frame rfl rfl, ?_⟩
    refine { h.flags with detached := ?_, cancels := ?_, drained := ?_ }
    · intro s member phase
      rcases called s member with old | rfl
      · exact h.flags.detached s old phase
      · cases phase
    · intro s member phase
      rcases called s member with old | rfl
      · exact h.flags.cancels s old phase
      · cases phase
    · intro s member phase
      rcases called s member with old | rfl
      · exact h.flags.drained s old phase
      · cases phase
  · exact h

theorem detach (h : Inv r) (n : Nat) : Inv (r.detach n) := by
  unfold Runtime.detach
  split
  · refine ⟨h.accounts.frame rfl rfl rfl rfl, h.statistics.frame rfl rfl, ?_⟩
    refine h.flags.shutdown rfl nofun id (fun ends => ⟨rfl, h.flags.released ends⟩) h.flags.closed
      rfl rfl rfl id rfl (fun _ => rfl) ?_ ?_
    · split <;> nofun
    · split <;> nofun
  · exact h

theorem cancel (h : Inv r) (n : Nat) : Inv (r.cancel n) := by
  unfold Runtime.cancel
  split
  next context found =>
    have off := h.flags.detached _ (List.mem_of_getElem? found) rfl
    refine ⟨?_, ?_, ?_⟩
    · refine Accounts.frame (r := { r with jobs := r.jobs.release, calls := r.calls.map Runtime.stopParked })
        ?_ rfl rfl rfl rfl
      refine h.accounts.leave rfl rfl ?_ ?_ ?_ ?_ ?_
      all_goals
        intro c
        unfold Runtime.stopParked
        cases phase : c.phase <;> simp [phase]
    · refine h.statistics.map rfl rfl fun c q => ?_
      rw [Call.listed_eq, Call.listed_eq]
      unfold Runtime.stopParked Call.timed
      cases phase : c.phase <;> simp [phase]
    · exact h.flags.shutdown h.flags.attached id (fun _ => rfl) (fun _ => ⟨off, rfl⟩) (fun _ => rfl)
        rfl rfl rfl id rfl nofun (fun _ => rfl) nofun
  · exact h

theorem close (h : Inv r) (n : Nat) : Inv (r.close n) := by
  unfold Runtime.close
  split
  next context found =>
    have ends := h.flags.cancels _ (List.mem_of_getElem? found) rfl
    split
    next jobs closes =>
      unfold Chan.close at closes
      split at closes
      · cases closes
      · obtain rfl := Option.some.inj closes
        refine ⟨?_, ?_, ?_⟩
        · refine Accounts.frame (r := { r with
            jobs := { r.jobs with closed := true, waiting := [] }
            calls := r.calls.map Runtime.panicParked }) ?_ rfl rfl rfl rfl
          refine h.accounts.leave rfl rfl ?_ ?_ ?_ ?_ ?_
          all_goals
            intro c
            unfold Runtime.panicParked
            split <;> simp_all
        · refine h.statistics.map rfl rfl fun c q => ?_
          rw [Call.listed_eq, Call.listed_eq]
          unfold Runtime.panicParked
          split
          next phase => simp only [Call.timed, phase]
          · rfl
        · exact h.flags.shutdown h.flags.attached id (fun _ => ends)
            (fun _ => ⟨h.flags.cancelled ends, rfl⟩) (fun _ => ends) rfl rfl rfl (fun _ => rfl) rfl
            nofun nofun nofun
    · exact ⟨h.accounts.frame rfl rfl rfl rfl, h.statistics.frame rfl rfl,
        h.flags.shutdown h.flags.attached id id
          (fun _ => ⟨h.flags.cancelled ends, h.flags.released ends⟩) h.flags.closed rfl rfl rfl id rfl
          nofun nofun nofun⟩
  · exact h

private theorem returns (h : Inv r) {n : Nat} {s : Shutdown} {phase : Stopping}
    (detached : phase ≠ .detached) (cancels : phase ≠ .cancelled)
    (drained : phase = .drained → ∀ w ∈ r.workers, w = .done) : Inv (r.setShutdown n s phase) :=
  ⟨h.accounts.frame rfl rfl rfl rfl, h.statistics.frame rfl rfl,
    h.flags.shutdown h.flags.attached id id
      (fun ends => ⟨h.flags.cancelled ends, h.flags.released ends⟩) h.flags.closed rfl rfl rfl id rfl
      (fun here => absurd here detached) (fun here => absurd here cancels) drained⟩

theorem drain (h : Inv r) (n : Nat) : Inv (r.drain n) := by
  unfold Runtime.drain
  split
  · split
    next all =>
      rw [List.all_eq_true] at all
      exact h.returns nofun nofun fun _ w member => of_decide_eq_true (all w member)
    · exact h
  · exact h

theorem expire (h : Inv r) (n : Nat) : Inv (r.expire n) := by
  unfold Runtime.expire
  split
  · exact h.returns nofun nofun nofun
  · exact h

theorem step (h : Inv r) (act : Act) : Inv (step r act) := by
  cases act with
  | enqueue queueName jobName isNil now => exact h.enqueue queueName jobName isNil now
  | count n => exact h.count n
  | select n send => exact h.select n send
  | giveBack n => exact h.giveBack n
  | tryEnqueue queueName jobName isNil now => exact h.tryEnqueue queueName jobName isNil now
  | range w => exact h.range w
  | receive w => exact h.receive w
  | startJob w => exact h.startJob w
  | finishJob w => exact h.finishJob w
  | shutdown context => exact h.shutdown context
  | detach n => exact h.detach n
  | cancel n => exact h.cancel n
  | close n => exact h.close n
  | drain n => exact h.drain n
  | expire n => exact h.expire n

end Inv

end ForestPanel.Queue
