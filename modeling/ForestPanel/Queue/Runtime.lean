import Mathlib.Algebra.GroupWithZero.Nat
import Mathlib.Logic.Function.Basic
import ForestPanel.Lib.Channel
import ForestPanel.Lib.Transition

/-!
# The job queue

`queue.Runtime` after `Start`: the calls of `Enqueue` and `TryEnqueue`, the worker
goroutines and the calls of `Shutdown`, each taking one atomic step at a time. A step
is a section under `r.mu`, a channel operation, or a step of a worker. The job
function of a call is named by the call; what it does and how long it takes is up to
the run.
-/
namespace ForestPanel.Queue

open Channel

structure QueuedJob where
  queueName : String
  jobName : String
  enqueued : Int
  /-- The call that handed the job over, for its function `run`. -/
  call : Nat
deriving DecidableEq

structure QueueState where
  pendingTimes : List Int
  inFlight : Nat

def normalizeQueueName (queueName : String) : String :=
  if queueName = "" then "default" else queueName

/-- Where a call of `Enqueue` or `TryEnqueue` stands. -/
inductive Phase where
  /-- `r.started` was true. -/
  | checked
  /-- The time is in `pendingTimes`, and `jobs` is the channel, or nil. -/
  | counted (channel : Bool)
  /-- The select waits. -/
  | parked (channel : Bool)
  /-- The select took `r.ctx.Done()`. -/
  | stopping
  | accepted
  | rejected (error : String)
  /-- The send panicked, with the time in `pendingTimes` or not. -/
  | panicked (counted : Bool)
deriving DecidableEq

/-- A call, and how often the workers have called its function and seen it return. -/
structure Call where
  job : QueuedJob
  phase : Phase
  started : Nat
  finished : Nat
deriving DecidableEq

inductive Worker where
  | spawned
  /-- In the loop `for job := range r.jobs`, at the receive. -/
  | receiving
  /-- The loop ranges over a nil channel. -/
  | blocked
  | took (job : QueuedJob)
  | running (job : QueuedJob)
  | done
deriving DecidableEq

/-- Where a call of `Shutdown` stands that found the runtime started. -/
inductive Stopping where
  | called
  /-- It holds the channel and the cancel function. -/
  | detached
  | cancelled
  | waiting
  | drained
  | expired
  /-- The close panicked. -/
  | panicked
deriving DecidableEq

/-- A call of `Shutdown`, with a context or with nil. -/
structure Shutdown where
  context : Bool
  phase : Stopping
deriving DecidableEq

structure Runtime where
  started : Bool
  /-- `r.jobs` and `r.cancel` are not nil. -/
  attached : Bool
  /-- `r.ctx` is done. -/
  cancelled : Bool
  jobs : Chan QueuedJob
  queues : String → QueueState
  calls : List Call
  workers : List Worker
  shutdowns : List Shutdown

/-- `NewRuntime` and `Start`. -/
def newRuntime (workerCount bufferSize : Int) : Runtime :=
  let workerCount := if workerCount ≤ 0 then 1 else workerCount
  let bufferSize := if bufferSize ≤ 0 then workerCount * 16 else bufferSize
  { started := true
    attached := true
    cancelled := false
    jobs := make bufferSize.toNat
    queues := fun _ => ⟨[], 0⟩
    calls := []
    workers := List.replicate workerCount.toNat .spawned
    shutdowns := [] }

namespace Runtime

def addPending (r : Runtime) (job : QueuedJob) : Runtime :=
  { r with
    queues := Function.update r.queues job.queueName
      { r.queues job.queueName with
        pendingTimes := (r.queues job.queueName).pendingTimes ++ [job.enqueued] } }

def dequeuePending (r : Runtime) (queueName : String) : Runtime :=
  { r with
    queues := Function.update r.queues queueName
      { r.queues queueName with
        pendingTimes := (r.queues queueName).pendingTimes.tail } }

def markDequeued (r : Runtime) (queueName : String) : Runtime :=
  { r with
    queues := Function.update r.queues queueName
      { pendingTimes := (r.queues queueName).pendingTimes.tail
        inFlight := (r.queues queueName).inFlight + 1 } }

def markFinished (r : Runtime) (queueName : String) : Runtime :=
  { r with
    queues := Function.update r.queues queueName
      { r.queues queueName with inFlight := (r.queues queueName).inFlight - 1 } }

def newJob (r : Runtime) (queueName jobName : String) (now : Int) : QueuedJob :=
  ⟨normalizeQueueName queueName, jobName, now, r.calls.length⟩

/-- A call begins; it stands in `phase` after its first checks. -/
def begin (r : Runtime) (queueName jobName : String) (now : Int) (phase : Phase) : Runtime :=
  { r with calls := r.calls ++ [⟨r.newJob queueName jobName now, phase, 0, 0⟩] }

def setPhase (r : Runtime) (n : Nat) (c : Call) (phase : Phase) : Runtime :=
  { r with calls := r.calls.set n { c with phase } }

def setWorker (r : Runtime) (w : Nat) (worker : Worker) : Runtime :=
  { r with workers := r.workers.set w worker }

def setShutdown (r : Runtime) (n : Nat) (s : Shutdown) (phase : Stopping) : Runtime :=
  { r with shutdowns := r.shutdowns.set n { s with phase } }

/-- `Enqueue` up to its lock. -/
def enqueue (r : Runtime) (queueName jobName : String) (isNil : Bool) (now : Int) : Runtime :=
  r.begin queueName jobName now <|
    if isNil then .rejected "queue job is nil"
    else if !r.started then .rejected "queue runtime not started"
    else .checked

/-- The section of `Enqueue` under the lock. -/
def count (r : Runtime) (n : Nat) : Runtime :=
  match r.calls[n]? with
  | some ⟨job, .checked, started, finished⟩ =>
    (r.addPending job).setPhase n ⟨job, .checked, started, finished⟩ (.counted r.attached)
  | _ => r

/-- The select of `Enqueue`. Where both cases are ready, `send` says which one it takes. -/
def select (r : Runtime) (n : Nat) (send : Bool) : Runtime :=
  match r.calls[n]? with
  | some c =>
    match c.phase with
    | .counted channel =>
      if r.cancelled && !(send && channel && r.jobs.sendReady) then r.setPhase n c .stopping
      else if channel then
        match r.jobs.trySend c.job with
        | .sent jobs => { r.setPhase n c .accepted with jobs }
        | .full => { r.setPhase n c (.parked true) with jobs := r.jobs.park c.job }
        | .panicked => r.setPhase n c (.panicked true)
      -- a nil channel is never ready
      else r.setPhase n c (.parked false)
    | _ => r
  | none => r

/-- The end of an `Enqueue` whose context is done. -/
def giveBack (r : Runtime) (n : Nat) : Runtime :=
  match r.calls[n]? with
  | some ⟨job, .stopping, started, finished⟩ =>
    (r.dequeuePending job.queueName).setPhase n ⟨job, .stopping, started, finished⟩
      (.rejected "queue runtime stopped")
  | _ => r

def tryEnqueue (r : Runtime) (queueName jobName : String) (isNil : Bool) (now : Int) : Runtime :=
  let job := r.newJob queueName jobName now
  if isNil then r.begin queueName jobName now (.rejected "queue job is nil")
  else if !r.started || !r.attached then
    r.begin queueName jobName now (.rejected "queue runtime not started")
  else
    match r.jobs.trySend job with
    | .sent jobs => { (r.addPending job).begin queueName jobName now .accepted with jobs }
    | .full => r.begin queueName jobName now (.rejected "queue runtime full")
    | .panicked => r.begin queueName jobName now (.panicked false)

/-- The worker evaluates `range r.jobs`. -/
def range (r : Runtime) (w : Nat) : Runtime :=
  match r.workers[w]? with
  | some .spawned => r.setWorker w (if r.attached then .receiving else .blocked)
  | _ => r

/-- The select of the sender that got room has sent. -/
def wake (r : Runtime) (sender : Option QueuedJob) : Runtime :=
  match sender with
  | some job =>
    match r.calls[job.call]? with
    | some c => r.setPhase job.call c .accepted
    | none => r
  | none => r

def receive (r : Runtime) (w : Nat) : Runtime :=
  match r.workers[w]? with
  | some .receiving =>
    match r.jobs.receive with
    | .received job jobs sender =>
      { (r.wake sender).setWorker w (.took job) with jobs }
    | .ended => r.setWorker w .done
    | .empty => r
  | _ => r

/-- `r.markDequeued(job.queueName)`, and the call of `job.run`. -/
def startJob (r : Runtime) (w : Nat) : Runtime :=
  match r.workers[w]? with
  | some (.took job) =>
    match r.calls[job.call]? with
    | some c =>
      let r := (r.markDequeued job.queueName).setWorker w (.running job)
      { r with calls := r.calls.set job.call { c with started := c.started + 1 } }
    | none => r
  | _ => r

/-- `job.run` has returned, and `r.markFinished(…)`. -/
def finishJob (r : Runtime) (w : Nat) : Runtime :=
  match r.workers[w]? with
  | some (.running job) =>
    match r.calls[job.call]? with
    | some c =>
      let r := (r.markFinished job.queueName).setWorker w .receiving
      { r with calls := r.calls.set job.call { c with finished := c.finished + 1 } }
    | none => r
  | _ => r

def shutdown (r : Runtime) (context : Bool) : Runtime :=
  if r.started then { r with shutdowns := r.shutdowns ++ [⟨context, .called⟩] } else r

/-- The section of `Shutdown` under the lock. -/
def detach (r : Runtime) (n : Nat) : Runtime :=
  match r.shutdowns[n]? with
  | some ⟨context, .called⟩ =>
    { r.setShutdown n ⟨context, .called⟩ (if r.attached then .detached else .waiting) with
      started := false
      attached := false }
  | _ => r

/-- A select that waits takes `r.ctx.Done()`. -/
def stopParked (c : Call) : Call :=
  match c.phase with
  | .parked _ => { c with phase := .stopping }
  | _ => c

def cancel (r : Runtime) (n : Nat) : Runtime :=
  match r.shutdowns[n]? with
  | some ⟨context, .detached⟩ =>
    { r.setShutdown n ⟨context, .detached⟩ .cancelled with
      cancelled := true
      jobs := r.jobs.release
      calls := r.calls.map stopParked }
  | _ => r

/-- A sender that waits on a channel panics when it is closed. -/
def panicParked (c : Call) : Call :=
  match c.phase with
  | .parked true => { c with phase := .panicked true }
  | _ => c

def close (r : Runtime) (n : Nat) : Runtime :=
  match r.shutdowns[n]? with
  | some ⟨context, .cancelled⟩ =>
    match r.jobs.close with
    | some jobs =>
      { r.setShutdown n ⟨context, .cancelled⟩ .waiting with
        jobs
        calls := r.calls.map panicParked }
    | none => r.setShutdown n ⟨context, .cancelled⟩ .panicked
  | _ => r

/-- `r.wg.Wait()` has returned. -/
def drain (r : Runtime) (n : Nat) : Runtime :=
  match r.shutdowns[n]? with
  | some ⟨context, .waiting⟩ =>
    if r.workers.all (· = .done) then r.setShutdown n ⟨context, .waiting⟩ .drained else r
  | _ => r

/-- The context of the `Shutdown` is done first. -/
def expire (r : Runtime) (n : Nat) : Runtime :=
  match r.shutdowns[n]? with
  | some ⟨true, .waiting⟩ => r.setShutdown n ⟨true, .waiting⟩ .expired
  | _ => r

end Runtime

inductive Act where
  | enqueue (queueName jobName : String) (isNil : Bool) (now : Int)
  | count (n : Nat)
  | select (n : Nat) (send : Bool)
  | giveBack (n : Nat)
  | tryEnqueue (queueName jobName : String) (isNil : Bool) (now : Int)
  | range (w : Nat)
  | receive (w : Nat)
  | startJob (w : Nat)
  | finishJob (w : Nat)
  | shutdown (context : Bool)
  | detach (n : Nat)
  | cancel (n : Nat)
  | close (n : Nat)
  | drain (n : Nat)
  | expire (n : Nat)

def step (r : Runtime) : Act → Runtime
  | .enqueue queueName jobName isNil now => r.enqueue queueName jobName isNil now
  | .count n => r.count n
  | .select n send => r.select n send
  | .giveBack n => r.giveBack n
  | .tryEnqueue queueName jobName isNil now => r.tryEnqueue queueName jobName isNil now
  | .range w => r.range w
  | .receive w => r.receive w
  | .startJob w => r.startJob w
  | .finishJob w => r.finishJob w
  | .shutdown context => r.shutdown context
  | .detach n => r.detach n
  | .cancel n => r.cancel n
  | .close n => r.close n
  | .drain n => r.drain n
  | .expire n => r.expire n

end ForestPanel.Queue
