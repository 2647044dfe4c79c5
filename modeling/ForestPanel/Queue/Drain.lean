import ForestPanel.Queue.Laws

/-!
# Shutdown drains the queue

Runs in which no producer sends late and the workers begin before the channel is
detached: nothing panics, and once the channel is closed the workers reach their end,
with every accepted job run once.
-/
namespace ForestPanel.Queue

open Channel Transition

/-- No `Enqueue` that holds the channel takes the send case of its select after the
channel was closed, and every worker begins before the channel is detached. -/
def Timely (r : Runtime) : Act → Prop
  | .select n send =>
    ¬(send = true ∧ r.jobs.closed = true ∧ r.calls[n]?.map Call.phase = some (.counted true))
  | .detach _ => ∀ w ∈ r.workers, w ≠ .spawned
  | _ => True

instance (r : Runtime) : ∀ act, Decidable (Timely r act)
  | .select n send => inferInstanceAs (Decidable
      (¬(send = true ∧ r.jobs.closed = true ∧ r.calls[n]?.map Call.phase = some (.counted true))))
  | .detach _ => inferInstanceAs (Decidable (∀ w ∈ r.workers, w ≠ .spawned))
  | .enqueue .. | .count _ | .giveBack _ | .tryEnqueue .. | .range _ | .receive _ | .startJob _
  | .finishJob _ | .shutdown _ | .cancel _ | .close _ | .drain _ | .expire _ => isTrue trivial

def Calm (calls : List Call) : Prop := ∀ c ∈ calls, ∀ counted, c.phase ≠ .panicked counted

/-- No worker ranges over a nil channel, and none will. -/
structure Begun (r : Runtime) : Prop where
  begun : r.attached = false → ∀ w ∈ r.workers, w ≠ .spawned
  receives : ∀ w ∈ r.workers, w ≠ .blocked

section

variable {r : Runtime} {n w : Nat}

namespace Calm

variable {calls : List Call} {c d : Call}

theorem set (h : Calm calls) (calm : ∀ counted, d.phase ≠ .panicked counted) :
    Calm (calls.set n d) := by
  intro x member
  rcases List.mem_or_eq_of_mem_set member with old | rfl
  · exact h x old
  · exact calm

theorem same (h : Calm calls) (found : calls[n]? = some c) (phase : d.phase = c.phase) :
    Calm (calls.set n d) :=
  h.set fun counted => phase ▸ h c (List.mem_of_getElem? found) counted

theorem append (h : Calm calls) (calm : ∀ counted, d.phase ≠ .panicked counted) :
    Calm (calls ++ [d]) := by
  intro x member
  rcases List.mem_append.mp member with old | new
  · exact h x old
  · obtain rfl := List.mem_singleton.mp new
    exact calm

theorem map (h : Calm calls) {f : Call → Call}
    (calm : ∀ c ∈ calls, ∀ counted, (f c).phase = .panicked counted → c.phase = .panicked counted) :
    Calm (calls.map f) := by
  intro x member
  obtain ⟨c, listed, rfl⟩ := List.mem_map.mp member
  exact fun counted panics => h c listed counted (calm c listed counted panics)

end Calm

private theorem select_calm (inv : Inv r) (h : Calm r.calls) (send : Bool) (timely : Timely r (.select n send)) :
    Calm (r.select n send).calls := by
  unfold Runtime.select
  split
  next c found =>
    split
    next channel phase =>
      split
      · exact h.set nofun
      next goes =>
        split
        next holds =>
          split
          · exact h.set nofun
          · exact h.set nofun
          next panics =>
            -- the channel is closed, so the context is done and the send was chosen
            exfalso
            have closed := Chan.trySend_panicked panics
            subst holds
            rw [inv.flags.closed closed, Bool.true_and, Bool.not_eq_true', Bool.not_eq_false,
              Bool.and_eq_true, Bool.and_eq_true] at goes
            exact timely ⟨goes.1.1, closed, by rw [found, Option.map_some, phase]⟩
        · exact h.set nofun
    · exact h
  · exact h

private theorem tryEnqueue_calm (inv : Inv r) (h : Calm r.calls) (queueName jobName : String)
    (isNil : Bool) (now : Int) : Calm (r.tryEnqueue queueName jobName isNil now).calls := by
  unfold Runtime.tryEnqueue
  dsimp only
  split
  · exact h.append nofun
  · split
    · exact h.append nofun
    next live =>
      split
      · exact h.append nofun
      · exact h.append nofun
      next panics =>
        -- an attached channel is open
        simp only [Bool.or_eq_true, Bool.not_eq_true', not_or, Bool.not_eq_false] at live
        have isOpen := (inv.flags.open_of_attached live.2).1
        rw [Chan.trySend_panicked panics] at isOpen
        cases isOpen

private theorem wake_calm (h : Calm r.calls) (sender : Option QueuedJob) :
    Calm (r.wake sender).calls := by
  unfold Runtime.wake
  split
  · split
    · exact h.set nofun
    · exact h
  · exact h

private theorem close_calm (inv : Inv r) (h : Calm r.calls) (n : Nat) :
    Calm (r.close n).calls := by
  unfold Runtime.close
  split
  next context found =>
    have ends := inv.flags.cancels _ (List.mem_of_getElem? found) rfl
    split
    · refine h.map fun c member counted panics => ?_
      unfold Runtime.panicParked at panics
      split at panics
      next parked =>
        -- no sender waits on the channel of a context that is done
        obtain ⟨m, found⟩ := List.mem_iff_getElem?.mp member
        have waits := (inv.accounts.balanced m c found).parked
        rw [inv.flags.released ends, if_pos parked] at waits
        cases waits
      · exact panics
    · exact h
  · exact h

theorem Calm.step (inv : Inv r) (h : Calm r.calls) (act : Act) (timely : Timely r act) :
    Calm (step r act).calls := by
  cases act with
  | enqueue queueName jobName isNil now =>
    apply h.append
    dsimp only
    split
    · nofun
    · split <;> nofun
  | count n =>
    dsimp only [Queue.step, Runtime.count]
    split
    · exact h.set nofun
    · exact h
  | select n send => exact select_calm inv h send timely
  | giveBack n =>
    dsimp only [Queue.step, Runtime.giveBack]
    split
    · exact h.set nofun
    · exact h
  | tryEnqueue queueName jobName isNil now => exact tryEnqueue_calm inv h queueName jobName isNil now
  | range w =>
    dsimp only [Queue.step, Runtime.range]
    split <;> exact h
  | receive w =>
    dsimp only [Queue.step, Runtime.receive]
    split
    · split
      next sender _ => exact wake_calm h sender
      · exact h
      · exact h
    · exact h
  | startJob w =>
    dsimp only [Queue.step, Runtime.startJob]
    split
    · split
      next found => exact h.same found rfl
      · exact h
    · exact h
  | finishJob w =>
    dsimp only [Queue.step, Runtime.finishJob]
    split
    · split
      next found => exact h.same found rfl
      · exact h
    · exact h
  | shutdown context =>
    dsimp only [Queue.step, Runtime.shutdown]
    split <;> exact h
  | detach n =>
    dsimp only [Queue.step, Runtime.detach]
    split <;> exact h
  | cancel n =>
    dsimp only [Queue.step, Runtime.cancel]
    split
    · refine h.map fun c _ counted panics => ?_
      unfold Runtime.stopParked at panics
      split at panics
      · cases panics
      · exact panics
    · exact h
  | close n => exact close_calm inv h n
  | drain n =>
    dsimp only [Queue.step, Runtime.drain]
    split
    · split <;> exact h
    · exact h
  | expire n =>
    dsimp only [Queue.step, Runtime.expire]
    split <;> exact h

private theorem Begun.set (h : Begun r) {worker : Worker} {r' : Runtime}
    (attached : r'.attached = r.attached) (workers : r'.workers = r.workers.set w worker)
    (begun : worker ≠ .spawned) (receives : worker ≠ .blocked) : Begun r' := by
  constructor
  · intro off other member
    rw [workers] at member
    rcases List.mem_or_eq_of_mem_set member with old | rfl
    · exact h.begun (attached ▸ off) other old
    · exact begun
  · intro other member
    rw [workers] at member
    rcases List.mem_or_eq_of_mem_set member with old | rfl
    · exact h.receives other old
    · exact receives

private theorem Begun.frame (h : Begun r) {r' : Runtime} (attached : r'.attached = r.attached)
    (workers : r'.workers = r.workers) : Begun r' := by
  constructor
  · rw [attached, workers]
    exact h.begun
  · rw [workers]
    exact h.receives

theorem Begun.step (h : Begun r) (act : Act) (timely : Timely r act) : Begun (step r act) := by
  cases act with
  | enqueue queueName jobName isNil now => exact h.frame rfl rfl
  | count n =>
    dsimp only [Queue.step, Runtime.count]
    split <;> exact h.frame rfl rfl
  | select n send =>
    dsimp only [Queue.step, Runtime.select]
    split
    · split
      · split
        · exact h.frame rfl rfl
        · split
          · split <;> exact h.frame rfl rfl
          · exact h.frame rfl rfl
      · exact h
    · exact h
  | giveBack n =>
    dsimp only [Queue.step, Runtime.giveBack]
    split <;> exact h.frame rfl rfl
  | tryEnqueue queueName jobName isNil now =>
    dsimp only [Queue.step, Runtime.tryEnqueue]
    split
    · exact h.frame rfl rfl
    · split
      · exact h.frame rfl rfl
      · split <;> exact h.frame rfl rfl
  | range w =>
    dsimp only [Queue.step, Runtime.range]
    split
    next found =>
      -- a worker that has not begun has an attached channel
      have attached : r.attached = true := by
        cases off : r.attached with
        | true => rfl
        | false => exact absurd rfl (h.begun off _ (List.mem_of_getElem? found))
      rw [attached, if_pos rfl]
      exact h.set rfl rfl nofun nofun
    · exact h
  | receive w =>
    dsimp only [Queue.step, Runtime.receive]
    split
    · split
      next sender _ =>
        have woken : (r.wake sender).attached = r.attached ∧ (r.wake sender).workers = r.workers := by
          unfold Runtime.wake
          split
          · split <;> exact ⟨rfl, rfl⟩
          · exact ⟨rfl, rfl⟩
        exact h.set woken.1 (congrArg (List.set · w _) woken.2) nofun nofun
      · exact h.set rfl rfl nofun nofun
      · exact h
    · exact h
  | startJob w =>
    dsimp only [Queue.step, Runtime.startJob]
    split
    · split
      · exact h.set rfl rfl nofun nofun
      · exact h
    · exact h
  | finishJob w =>
    dsimp only [Queue.step, Runtime.finishJob]
    split
    · split
      · exact h.set rfl rfl nofun nofun
      · exact h
    · exact h
  | shutdown context =>
    dsimp only [Queue.step, Runtime.shutdown]
    split <;> exact h.frame rfl rfl
  | detach n =>
    dsimp only [Queue.step, Runtime.detach]
    split
    · exact ⟨fun _ => timely, h.receives⟩
    · exact h
  | cancel n =>
    dsimp only [Queue.step, Runtime.cancel]
    split <;> exact h.frame rfl rfl
  | close n =>
    dsimp only [Queue.step, Runtime.close]
    split
    · split <;> exact h.frame rfl rfl
    · exact h
  | drain n =>
    dsimp only [Queue.step, Runtime.drain]
    split
    · split <;> exact h.frame rfl rfl
    · exact h
  | expire n =>
    dsimp only [Queue.step, Runtime.expire]
    split <;> exact h.frame rfl rfl

end

def Act.ofWorker : Act → Bool
  | .receive _ | .startJob _ | .finishJob _ => true
  | _ => false

/-- How many steps a worker is from its next receive of a closed, empty channel. -/
def Worker.work : Worker → Nat
  | receiving => 1
  | took _ => 3
  | running _ => 2
  | _ => 0

def Runtime.work (r : Runtime) : Nat :=
  3 * r.jobs.buffer.length + (r.workers.map Worker.work).sum

section

variable {r : Runtime}

private theorem goes_on (inv : Inv r) (begun : Begun r) (closed : r.jobs.closed = true) {w : Nat}
    {worker : Worker} (found : r.workers[w]? = some worker) (live : worker ≠ .done) :
    ∃ act, act.ofWorker = true ∧ (step r act).jobs.closed = true ∧ (step r act).work < r.work := by
  have member := List.mem_of_getElem? found
  have detached := inv.flags.cancelled (inv.flags.closed closed)
  have owner : ∀ job ∈ worker.job?, ∃ c, r.calls[job.call]? = some c := by
    intro job has
    obtain ⟨c, owner, -⟩ := inv.accounts.held worker member job has
    exact ⟨c, owner⟩
  cases worker with
  | spawned => exact absurd rfl (begun.begun detached _ member)
  | blocked => exact absurd rfl (begun.receives _ member)
  | done => exact absurd rfl live
  | receiving =>
    refine ⟨.receive w, rfl, ?_⟩
    dsimp only [step, Runtime.receive]
    rw [found]
    dsimp only
    split
    next job jobs sender received =>
      have released := inv.flags.released (inv.flags.closed closed)
      rcases Chan.receive_received received with
        ⟨rest, buffer, -, rfl, rfl⟩ | ⟨rest, b, more, -, waiting, -⟩
      · refine ⟨closed, ?_⟩
        have changed := sum_set_add (f := Worker.work) (a := .took job) found
        unfold Runtime.work
        rw [buffer, List.length_cons]
        show 3 * rest.length + ((r.workers.set w (.took job)).map Worker.work).sum < _
        simp only [Worker.work] at changed
        omega
      · rw [released] at waiting
        cases waiting
    · refine ⟨closed, ?_⟩
      have changed := sum_set_add (f := Worker.work) (a := .done) found
      show 3 * r.jobs.buffer.length + ((r.workers.set w .done).map Worker.work).sum < r.work
      unfold Runtime.work
      simp only [Worker.work] at changed
      omega
    next empty => exact absurd empty (Chan.receive_ne_empty closed)
  | took job =>
    obtain ⟨c, calls⟩ := owner job rfl
    refine ⟨.startJob w, rfl, ?_⟩
    dsimp only [step, Runtime.startJob]
    rw [found]
    dsimp only
    rw [calls]
    refine ⟨closed, ?_⟩
    have changed := sum_set_add (f := Worker.work) (a := .running job) found
    show 3 * r.jobs.buffer.length + ((r.workers.set w (.running job)).map Worker.work).sum < r.work
    unfold Runtime.work
    simp only [Worker.work] at changed
    omega
  | running job =>
    obtain ⟨c, calls⟩ := owner job rfl
    refine ⟨.finishJob w, rfl, ?_⟩
    dsimp only [step, Runtime.finishJob]
    rw [found]
    dsimp only
    rw [calls]
    refine ⟨closed, ?_⟩
    have changed := sum_set_add (f := Worker.work) (a := .receiving) found
    show 3 * r.jobs.buffer.length + ((r.workers.set w .receiving).map Worker.work).sum < r.work
    unfold Runtime.work
    simp only [Worker.work] at changed
    omega

private theorem timely_of_worker {act : Act} (worker : act.ofWorker = true) : Timely r act := by
  cases act <;> first | exact trivial | cases worker

theorem workers_end (inv : Inv r) (begun : Begun r) (closed : r.jobs.closed = true) :
    ∃ acts, (∀ act ∈ acts, act.ofWorker = true) ∧
      ∀ w ∈ (run step r acts).workers, w = .done := by
  -- by induction on the work left
  induction left : r.work using Nat.strongRecOn generalizing r with
  | ind work ih =>
    by_cases ended : ∀ w ∈ r.workers, w = .done
    · exact ⟨[], nofun, ended⟩
    · push Not at ended
      obtain ⟨worker, member, live⟩ := ended
      obtain ⟨w, found⟩ := List.mem_iff_getElem?.mp member
      obtain ⟨act, ofWorker, stays, less⟩ := goes_on inv begun closed found live
      obtain ⟨acts, workers, all⟩ := ih _ (left ▸ less) (inv.step act)
        (begun.step act (timely_of_worker ofWorker)) stays rfl
      refine ⟨act :: acts, ?_, all⟩
      intro a member
      rcases List.mem_cons.mp member with rfl | later
      · exact ofWorker
      · exact workers a later

end

private theorem inv_newRuntime (workerCount bufferSize : Int) :
    Inv (newRuntime workerCount bufferSize) := by
  unfold newRuntime
  dsimp only
  refine ⟨⟨nofun, nofun, nofun, ?_, nofun⟩, fun q => rfl, ?_⟩
  · intro w member job has
    rw [List.eq_of_mem_replicate member] at has
    cases has
  · refine ⟨rfl, nofun, nofun, fun _ => rfl, ?_, ?_, nofun, nofun, ?_, nofun⟩
    · show 0 < Int.toNat _
      split
      · split <;> omega
      · omega
    · intro none
      have empty := congrArg List.length none
      rw [List.length_replicate] at empty
      split at empty
      · cases empty
      next positive =>
        have none : workerCount.toNat = 0 := empty
        omega
    · intro w member ended
      rw [List.eq_of_mem_replicate member] at ended
      cases ended

private theorem begun_newRuntime (workerCount bufferSize : Int) :
    Begun (newRuntime workerCount bufferSize) := by
  unfold newRuntime
  refine ⟨nofun, ?_⟩
  intro w member
  rw [List.eq_of_mem_replicate member]
  nofun

structure Kept (r : Runtime) : Prop where
  /-- No producer has sent on a closed channel. -/
  calm : ∀ c ∈ r.calls, ∀ counted, c.phase ≠ .panicked counted
  /-- No job is run twice. -/
  once : ∀ c ∈ r.calls, c.started ≤ 1
  /-- The job of a call that has not returned success is not run. -/
  accepted : ∀ c ∈ r.calls, c.phase ≠ .accepted → c.started = 0
  /-- When the drain of a `Shutdown` is complete, every accepted job has been run. -/
  drained : (∃ s ∈ r.shutdowns, s.phase = .drained) →
    ∀ c ∈ r.calls, c.phase = .accepted → c.started = 1 ∧ c.finished = 1
  /-- Once the channel is closed, the workers can complete the drain. -/
  drains : r.jobs.closed = true → ∃ acts, (∀ act ∈ acts, act.ofWorker = true) ∧
    ∀ w ∈ (run step r acts).workers, w = .done
  /-- The statistics of a queue count its accepted jobs that are not started exactly when
  no `Enqueue` of the queue is under way. -/
  pending : ∀ q, r.pending q = r.notStarted q ↔ r.underWay q = 0

theorem Inv.kept {r : Runtime} (inv : Inv r) (calm : Calm r.calls) (begun : Begun r) : Kept r := by
  have counted : ∀ c ∈ r.calls, ∃ n, r.calls[n]? = some c ∧ Account r n c := by
    intro c member
    obtain ⟨n, found⟩ := List.mem_iff_getElem?.mp member
    exact ⟨n, found, inv.accounts.balanced n c found⟩
  refine ⟨calm, ?_, ?_, ?_, workers_end inv begun, ?_⟩
  · intro c member
    obtain ⟨n, -, account⟩ := counted c member
    have once := account.once
    split at once <;> omega
  · intro c member rejected
    obtain ⟨n, -, account⟩ := counted c member
    have once := account.once
    rw [if_neg rejected] at once
    omega
  · rintro ⟨s, listed, drained⟩ c member accepted
    obtain ⟨n, -, account⟩ := counted c member
    have ended := inv.flags.drained s listed drained
    -- a worker that has ended holds no job, and found the buffer empty
    have idle : ∀ p : Worker → Bool, p .done = false → r.workers.countP p = 0 := by
      intro p none
      rw [List.countP_eq_zero]
      intro w there
      rw [ended w there, none]
      nofun
    obtain ⟨w, there⟩ := List.exists_mem_of_ne_nil _ inv.flags.workers
    have once := account.once
    have ran := account.ran
    rw [(inv.flags.done w there (ended w there)).2, if_pos accepted,
      idle (·.takes n) rfl] at once
    rw [idle (·.runs n) rfl] at ran
    simp only [List.countP_nil] at once
    omega
  · intro q
    rw [inv.statistics.total q]
    omega

/-- In a timely run nothing is lost, repeated or sent on a closed channel. -/
theorem queue_loses_no_job (workerCount bufferSize : Int) (acts : List Act)
    (timely : Along step Timely (newRuntime workerCount bufferSize) acts) :
    Kept (run step (newRuntime workerCount bufferSize) acts) := by
  obtain ⟨inv, calm, begun⟩ := run_invariant
    (I := fun r => Inv r ∧ Calm r.calls ∧ Begun r) (G := Timely)
    (fun r act kept timely =>
      ⟨kept.1.step act, kept.2.1.step kept.1 act timely, kept.2.2.step act timely⟩)
    _ acts ⟨inv_newRuntime workerCount bufferSize, nofun, begun_newRuntime workerCount bufferSize⟩
    timely
  exact inv.kept calm begun

/-- A producer waits for room, and the queue is shut down while a job runs. -/
def shutdownWhileFull : List Act :=
  [.enqueue "mail" "first" false 0, .range 0, .count 0, .select 0 true,
    .tryEnqueue "mail" "second" false 1, .enqueue "mail" "third" false 2, .count 2, .select 2 true,
    .receive 0, .startJob 0, .shutdown false, .detach 0, .cancel 0, .close 0, .finishJob 0,
    .receive 0, .startJob 0, .finishJob 0, .receive 0, .drain 0]

theorem shutdown_drains_full_queue :
    (run step (newRuntime 1 1) shutdownWhileFull).calls.map Call.phase =
      [.accepted, .rejected "queue runtime full", .accepted] ∧
    (run step (newRuntime 1 1) shutdownWhileFull).shutdowns = [⟨false, .drained⟩] ∧
    Kept (run step (newRuntime 1 1) shutdownWhileFull) :=
  ⟨by decide +kernel, by decide +kernel,
    queue_loses_no_job 1 1 shutdownWhileFull (by decide +kernel)⟩

/-- A producer takes the channel, and sends after `Shutdown` has closed it. -/
def lateProducer : List Act :=
  [.enqueue "mail" "first" false 0, .range 0, .count 0, .shutdown true, .detach 0, .cancel 0,
    .close 0, .select 0 true]

/-- A job is accepted, and the only worker begins after `Shutdown` has detached the channel. -/
def lateWorker : List Act :=
  [.tryEnqueue "mail" "first" false 0, .shutdown false, .detach 0, .cancel 0, .close 0, .range 0]

/-- The late producer panics, and its time stays in the statistics, which counted the job
before it was accepted; the late worker waits on a nil channel and its job is never run. -/
theorem late_producer_panics :
    (run step (newRuntime 1 1) lateProducer).calls.map Call.phase = [.panicked true] ∧
    (run step (newRuntime 1 1) lateProducer).pending "mail" = 1 ∧
    (run step (newRuntime 1 1) lateProducer).notStarted "mail" = 0 ∧
    (run step (newRuntime 1 1) (lateProducer.take 3)).pending "mail" = 1 ∧
    (run step (newRuntime 1 1) (lateProducer.take 3)).notStarted "mail" = 0 ∧
    (run step (newRuntime 1 1) lateWorker).calls.map Call.phase = [.accepted] ∧
    (run step (newRuntime 1 1) lateWorker).workers = [.blocked] := by
  decide +kernel

end ForestPanel.Queue
