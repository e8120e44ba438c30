import EasyRpc.ThreadTableProofs
import EasyRpc.WaitChannelProofs

/-! # The thread pool — workers, producers and the two condition variables

    `thread_pool` shares one queue between any number of workers (`run_task`) and producers
    (`add_task`).  A worker with nothing to do sleeps on `task_get_`, a producer that finds the
    queue full sleeps on `task_put_`, and each side wakes the other with a `notify_one` issued
    outside the lock — the worker's only after its task has run.

    The interleaving is one critical section a step: from taking `task_queue_mutex_` to the
    verdict of the loop condition, and on to the pop or the push where there is nothing to wait
    for.  A thread that has to wait keeps the mutex between its verdict and its `wait`, which is
    a step of its own (places `wait`), and `wait` releases the mutex and falls asleep at once.
    The stop flag, `notify_one` and `notify_all` do not take the mutex.

    **No wakeup is lost while the pool is running** (`no_lost_wakeup`): each condition variable,
    seen through its counters, is a `WaitChannel`. -/

namespace EasyRpcThreadPool

open Transition ThreadTable WaitChannel

variable {Task : Type}

/-- `max_task_quque_size`, spelled as the source spells it. -/
def maxTaskQuqueSize : Nat := 100000

/-! ## Places of the threads -/

/-- Where a worker is in `run_task`. -/
inductive WorkerPc (Task : Type) where
  -- at the top of the loop, before taking the mutex
  | lock
  -- holds the mutex, found the queue empty and the flag unset, and is about to wait
  | wait
  -- asleep on `task_get_`
  | asleep
  -- woken on `task_get_`, before taking the mutex again
  | woken
  -- running a popped task
  | run (task : Task)
  -- the task has ended; `task_put_.notify_one()` is next
  | notify
  -- has left `run_task`
  | done

/-- Where a producer is in `add_task` and `add_task_impl`. -/
inductive ProducerPc (Task : Type) where
  -- not in `add_task`
  | idle
  -- at `if (!is_stop_threadpool_)`, before any lock
  | stopTest (task : Task)
  -- in `add_task_impl`, before taking the mutex
  | lock (task : Task)
  -- holds the mutex, found the queue full and the flag unset, and is about to wait
  | wait (task : Task)
  -- asleep on `task_put_`
  | asleep (task : Task)
  -- woken on `task_put_`, before taking the mutex again
  | woken (task : Task)
  -- has enqueued; `task_get_.notify_one()` is next
  | notify

/-- Where the one execution of `terminate_all` is (`std::call_once` lets only one run). -/
inductive StopPc where
  | idle
  -- before `is_stop_threadpool_ = true`
  | store
  -- before `task_get_.notify_all()`
  | notifyAll
  -- joining the workers
  | join
  -- before `clean_task_queue()`
  | clear
  | returned
  deriving DecidableEq

/-- The threads that can hold the mutex. -/
inductive ThreadId where
  | worker (i : Nat)
  | producer (j : Nat)
  deriving DecidableEq

/-- The state of the pool.  `enqueued` and `popped` record what went through the queue. -/
structure ThreadPool (Task : Type) where
  isStopThreadpool : Bool
  taskQueue : List Task
  taskQueueMutex : Option ThreadId
  workers : List (WorkerPc Task)
  producers : List (ProducerPc Task)
  stopper : StopPc
  enqueued : List Task
  popped : List Task

/-- It waits on `task_get_`. -/
@[simp] def WorkerPc.isAsleep : WorkerPc Task → Bool
  | .asleep => true
  | _ => false

/-- It has been woken and wants the mutex back. -/
@[simp] def WorkerPc.isWoken : WorkerPc Task → Bool
  | .woken => true
  | _ => false

/-- It has popped a task and has not notified yet. -/
@[simp] def WorkerPc.isPopped : WorkerPc Task → Bool
  | .run _ => true
  | .notify => true
  | _ => false

/-- Its loop has ended. -/
@[simp] def WorkerPc.isDone : WorkerPc Task → Bool
  | .done => true
  | _ => false

/-- It waits on `task_put_`. -/
@[simp] def ProducerPc.isAsleep : ProducerPc Task → Bool
  | .asleep _ => true
  | _ => false

/-- It has been woken and wants the mutex back. -/
@[simp] def ProducerPc.isWoken : ProducerPc Task → Bool
  | .woken _ => true
  | _ => false

/-- It has enqueued a task and has not notified yet. -/
@[simp] def ProducerPc.isEnqueued : ProducerPc Task → Bool
  | .notify => true
  | _ => false

/-- What `task_get_.notify_all()` does to a worker. -/
def WorkerPc.notified : WorkerPc Task → WorkerPc Task
  | .asleep => .woken
  | pc => pc

namespace ThreadPool

/-- One worker at another place. -/
def setWorker (p : ThreadPool Task) (i : Nat) (pc : WorkerPc Task) : ThreadPool Task :=
  { p with workers := p.workers.set i pc }

/-- One producer at another place. -/
def setProducer (p : ThreadPool Task) (j : Nat) (pc : ProducerPc Task) : ThreadPool Task :=
  { p with producers := p.producers.set j pc }

section Fields

variable (p : ThreadPool Task) (i j : Nat) (pw : WorkerPc Task) (pp : ProducerPc Task)

@[simp] theorem setWorker_producers : (p.setWorker i pw).producers = p.producers := rfl
@[simp] theorem setWorker_queue : (p.setWorker i pw).taskQueue = p.taskQueue := rfl
@[simp] theorem setProducer_workers : (p.setProducer j pp).workers = p.workers := rfl
@[simp] theorem setProducer_queue : (p.setProducer j pp).taskQueue = p.taskQueue := rfl

end Fields

/-- `task_get_.notify_one()`: some sleeping worker wakes, or there is none. -/
def notifyGet (p : ThreadPool Task) : Option Nat → Option (ThreadPool Task)
  | none => if p.workers.countP WorkerPc.isAsleep = 0 then some p else none
  | some i =>
      match p.workers[i]? with
      | some .asleep => some (p.setWorker i .woken)
      | _ => none

/-- `task_put_.notify_one()`: some sleeping producer wakes, or there is none. -/
def notifyPut (p : ThreadPool Task) : Option Nat → Option (ThreadPool Task)
  | none => if p.producers.countP ProducerPc.isAsleep = 0 then some p else none
  | some j =>
      match p.producers[j]? with
      | some (.asleep task) => some (p.setProducer j (.woken task))
      | _ => none

/-- The critical section of `run_task`, entered by worker `i` with the mutex free. -/
def takeTask (p : ThreadPool Task) (i : Nat) : Option (ThreadPool Task) :=
  if p.taskQueueMutex ≠ none then none
  else if p.taskQueue.isEmpty && !p.isStopThreadpool then
    some { p.setWorker i .wait with taskQueueMutex := some (.worker i) }
  else if p.isStopThreadpool then
    some (p.setWorker i .done)
  else
    match p.taskQueue with
    | [] => some (p.setWorker i .lock)
    | task :: rest =>
        some { p.setWorker i (.run task) with
          taskQueue := rest, popped := p.popped ++ [task] }

/-- The critical section of `add_task_impl`, entered by producer `j` with the mutex free. -/
def putTask (p : ThreadPool Task) (j : Nat) (task : Task) : Option (ThreadPool Task) :=
  if p.taskQueueMutex ≠ none then none
  else if p.taskQueue.length == maxTaskQuqueSize && !p.isStopThreadpool then
    some { p.setProducer j (.wait task) with taskQueueMutex := some (.producer j) }
  else
    some { p.setProducer j .notify with
      taskQueue := p.taskQueue ++ [task], enqueued := p.enqueued ++ [task] }

/-- The next step of worker `i`; `woken` is the producer that its `notify_one` wakes. -/
def workerStep (p : ThreadPool Task) (i : Nat) (woken : Option Nat) :
    Option (ThreadPool Task) :=
  match p.workers[i]? with
  | some .lock => p.takeTask i
  | some .woken => p.takeTask i
  | some .wait => some { p.setWorker i .asleep with taskQueueMutex := none }
  | some (.run _) => some (p.setWorker i .notify)
  | some .notify => (p.setWorker i .lock).notifyPut woken
  | _ => none

/-- The next step of producer `j`; `woken` is the worker that its `notify_one` wakes. -/
def producerStep (p : ThreadPool Task) (j : Nat) (woken : Option Nat) :
    Option (ThreadPool Task) :=
  match p.producers[j]? with
  | some (.stopTest task) =>
      if p.isStopThreadpool then some (p.setProducer j .idle)
      else some (p.setProducer j (.lock task))
  | some (.lock task) => p.putTask j task
  | some (.woken task) => p.putTask j task
  | some (.wait task) => some { p.setProducer j (.asleep task) with taskQueueMutex := none }
  | some .notify => (p.setProducer j .idle).notifyGet woken
  | _ => none

/-- The next step of `terminate_all`. -/
def terminateStep (p : ThreadPool Task) : Option (ThreadPool Task) :=
  match p.stopper with
  | .store => some { p with isStopThreadpool := true, stopper := .notifyAll }
  | .notifyAll =>
      some { p with workers := p.workers.map WorkerPc.notified, stopper := .join }
  | .join =>
      -- the joins return one after the other, each once its worker has left `run_task`
      if p.workers.all WorkerPc.isDone then some { p with stopper := .clear } else none
  | .clear =>
      if p.taskQueueMutex ≠ none then none
      else some { p with taskQueue := [], stopper := .returned }
  | _ => none

end ThreadPool

/-- The actions of the pool. -/
inductive Act (Task : Type) where
  | worker (i : Nat) (woken : Option Nat)
  -- worker `i` wakes spuriously
  | wakeWorker (i : Nat)
  -- producer `j` calls `add_task`
  | addTask (j : Nat) (task : Task)
  | producer (j : Nat) (woken : Option Nat)
  -- producer `j` wakes spuriously
  | wakeProducer (j : Nat)
  -- the first call of `stop`
  | stop
  | terminate

/-- One step of the pool: a thread goes on, a call begins, or a wait ends by itself. -/
def ThreadPool.step (p : ThreadPool Task) : Act Task → Option (ThreadPool Task)
  | .worker i woken => p.workerStep i woken
  | .wakeWorker i =>
      match p.workers[i]? with
      | some .asleep => some (p.setWorker i .woken)
      | _ => none
  | .addTask j task =>
      match p.producers[j]? with
      | some .idle => some (p.setProducer j (.stopTest task))
      | _ => none
  | .producer j woken => p.producerStep j woken
  | .wakeProducer j =>
      match p.producers[j]? with
      | some (.asleep task) => some (p.setProducer j (.woken task))
      | _ => none
  | .stop =>
      match p.stopper with
      | .idle => some { p with stopper := .store }
      | _ => none
  | .terminate => p.terminateStep

/-- A pool of `n` workers at the top of their loop and `m` producers, with an empty queue. -/
def ThreadPool.initial (n m : Nat) : ThreadPool Task where
  isStopThreadpool := false
  taskQueue := []
  taskQueueMutex := none
  workers := List.replicate n .lock
  producers := List.replicate m .idle
  stopper := .idle
  enqueued := []
  popped := []

/-- Any number of workers and producers. -/
def poolSystem : System (ThreadPool Task) (Act Task) where
  start p := ∃ n m, p = ThreadPool.initial n m
  step := ThreadPool.step

/-! ## Waking a thread that sleeps -/

section Wakes

variable {p : ThreadPool Task}

/-- A sleeping worker can be the one that `notify_one` wakes. -/
theorem notifyGet_asleep {i : Nat} (hi : p.workers[i]? = some .asleep) :
    p.notifyGet (some i) = some (p.setWorker i .woken) := by
  rw [ThreadPool.notifyGet, hi]

theorem notifyPut_asleep {j : Nat} {task : Task} (hj : p.producers[j]? = some (.asleep task)) :
    p.notifyPut (some j) = some (p.setProducer j (.woken task)) := by
  rw [ThreadPool.notifyPut, hj]

theorem wakeWorker_asleep {i : Nat} (hi : p.workers[i]? = some .asleep) :
    poolSystem.step p (.wakeWorker i) = some (p.setWorker i .woken) :=
  notifyGet_asleep hi

theorem wakeProducer_asleep {j : Nat} {task : Task}
    (hj : p.producers[j]? = some (.asleep task)) :
    poolSystem.step p (.wakeProducer j) = some (p.setProducer j (.woken task)) :=
  notifyPut_asleep hj

end Wakes

/-! ## What one step can do -/

/-- The steps of the pool, with everything each of them checks and changes. -/
inductive Step (p : ThreadPool Task) : Act Task → ThreadPool Task → Prop where
  | workerWaits {i : Nat} {w : Option Nat} {pc : WorkerPc Task}
      (hpc : p.workers[i]? = some pc) (hin : pc = .lock ∨ pc = .woken)
      (hfree : p.taskQueueMutex = none) (hempty : p.taskQueue = [])
      (hrun : p.isStopThreadpool = false) :
      Step p (.worker i w)
        { p.setWorker i .wait with taskQueueMutex := some (.worker i) }
  | workerLeaves {i : Nat} {w : Option Nat} {pc : WorkerPc Task}
      (hpc : p.workers[i]? = some pc) (hin : pc = .lock ∨ pc = .woken)
      (hfree : p.taskQueueMutex = none) (hstop : p.isStopThreadpool = true) :
      Step p (.worker i w) (p.setWorker i .done)
  | workerTakes {i : Nat} {w : Option Nat} {pc : WorkerPc Task} {task : Task}
      {rest : List Task} (hpc : p.workers[i]? = some pc) (hin : pc = .lock ∨ pc = .woken)
      (hfree : p.taskQueueMutex = none) (hqueue : p.taskQueue = task :: rest)
      (hrun : p.isStopThreadpool = false) :
      Step p (.worker i w)
        { p.setWorker i (.run task) with
          taskQueue := rest, popped := p.popped ++ [task] }
  | workerSleeps {i : Nat} {w : Option Nat} (hpc : p.workers[i]? = some .wait) :
      Step p (.worker i w) { p.setWorker i .asleep with taskQueueMutex := none }
  | workerEnds {i : Nat} {w : Option Nat} {task : Task}
      (hpc : p.workers[i]? = some (.run task)) :
      Step p (.worker i w) (p.setWorker i .notify)
  | workerWakesNone {i : Nat} (hpc : p.workers[i]? = some .notify)
      (hnone : p.producers.countP ProducerPc.isAsleep = 0) :
      Step p (.worker i none) (p.setWorker i .lock)
  | workerWakes {i j : Nat} {task : Task} (hpc : p.workers[i]? = some .notify)
      (hsleep : p.producers[j]? = some (.asleep task)) :
      Step p (.worker i (some j)) ((p.setWorker i .lock).setProducer j (.woken task))
  | workerSpurious {i : Nat} (hpc : p.workers[i]? = some .asleep) :
      Step p (.wakeWorker i) (p.setWorker i .woken)
  | producerCalls {j : Nat} {task : Task} (hpc : p.producers[j]? = some .idle) :
      Step p (.addTask j task) (p.setProducer j (.stopTest task))
  | producerDeclined {j : Nat} {w : Option Nat} {task : Task}
      (hpc : p.producers[j]? = some (.stopTest task)) (hstop : p.isStopThreadpool = true) :
      Step p (.producer j w) (p.setProducer j .idle)
  | producerAdmitted {j : Nat} {w : Option Nat} {task : Task}
      (hpc : p.producers[j]? = some (.stopTest task)) (hrun : p.isStopThreadpool = false) :
      Step p (.producer j w) (p.setProducer j (.lock task))
  | producerWaits {j : Nat} {w : Option Nat} {pc : ProducerPc Task} {task : Task}
      (hpc : p.producers[j]? = some pc) (hin : pc = .lock task ∨ pc = .woken task)
      (hfree : p.taskQueueMutex = none) (hfull : p.taskQueue.length = maxTaskQuqueSize)
      (hrun : p.isStopThreadpool = false) :
      Step p (.producer j w)
        { p.setProducer j (.wait task) with taskQueueMutex := some (.producer j) }
  | producerPuts {j : Nat} {w : Option Nat} {pc : ProducerPc Task} {task : Task}
      (hpc : p.producers[j]? = some pc) (hin : pc = .lock task ∨ pc = .woken task)
      (hfree : p.taskQueueMutex = none)
      (hroom : p.isStopThreadpool = false → p.taskQueue.length ≠ maxTaskQuqueSize) :
      Step p (.producer j w)
        { p.setProducer j .notify with
          taskQueue := p.taskQueue ++ [task], enqueued := p.enqueued ++ [task] }
  | producerSleeps {j : Nat} {w : Option Nat} {task : Task}
      (hpc : p.producers[j]? = some (.wait task)) :
      Step p (.producer j w)
        { p.setProducer j (.asleep task) with taskQueueMutex := none }
  | producerWakesNone {j : Nat} (hpc : p.producers[j]? = some .notify)
      (hnone : p.workers.countP WorkerPc.isAsleep = 0) :
      Step p (.producer j none) (p.setProducer j .idle)
  | producerWakes {j i : Nat} (hpc : p.producers[j]? = some .notify)
      (hsleep : p.workers[i]? = some .asleep) :
      Step p (.producer j (some i)) ((p.setProducer j .idle).setWorker i .woken)
  | producerSpurious {j : Nat} {task : Task} (hpc : p.producers[j]? = some (.asleep task)) :
      Step p (.wakeProducer j) (p.setProducer j (.woken task))
  | stopCalled (hidle : p.stopper = .idle) : Step p .stop { p with stopper := .store }
  | stopStores (hpc : p.stopper = .store) :
      Step p .terminate { p with isStopThreadpool := true, stopper := .notifyAll }
  | stopNotifies (hpc : p.stopper = .notifyAll) :
      Step p .terminate
        { p with workers := p.workers.map WorkerPc.notified, stopper := .join }
  | stopJoins (hpc : p.stopper = .join) (hdone : p.workers.all WorkerPc.isDone = true) :
      Step p .terminate { p with stopper := .clear }
  | stopClears (hpc : p.stopper = .clear) (hfree : p.taskQueueMutex = none) :
      Step p .terminate { p with taskQueue := [], stopper := .returned }

/-- The worker's critical section: it waits, leaves the loop, or takes the front task. -/
theorem takeTask_cases {p p' : ThreadPool Task} {i : Nat} {w : Option Nat}
    {pc : WorkerPc Task} (hpc : p.workers[i]? = some pc) (hin : pc = .lock ∨ pc = .woken)
    (hs : p.takeTask i = some p') : Step p (.worker i w) p' := by
  unfold ThreadPool.takeTask at hs
  by_cases hfree : p.taskQueueMutex = none
  · rw [if_neg (not_not_intro hfree)] at hs
    cases hrun : p.isStopThreadpool with
    | true =>
        simp only [hrun, Bool.not_true, Bool.and_false, if_true] at hs
        cases hs
        exact Step.workerLeaves hpc hin hfree hrun
    | false =>
        cases hqueue : p.taskQueue with
        | nil =>
            simp only [hrun, hqueue, List.isEmpty_nil, Bool.not_false, Bool.and_true] at hs
            cases hs
            exact Step.workerWaits hpc hin hfree hqueue hrun
        | cons task rest =>
            simp only [hrun, hqueue, List.isEmpty_cons, Bool.false_and] at hs
            cases hs
            exact Step.workerTakes hpc hin hfree hqueue hrun
  · rw [if_pos hfree] at hs
    exact nomatch hs

/-- The producer's critical section: it waits for room or puts its task at the back. -/
theorem putTask_cases {p p' : ThreadPool Task} {j : Nat} {w : Option Nat} {task : Task}
    {pc : ProducerPc Task} (hpc : p.producers[j]? = some pc)
    (hin : pc = .lock task ∨ pc = .woken task) (hs : p.putTask j task = some p') :
    Step p (.producer j w) p' := by
  unfold ThreadPool.putTask at hs
  by_cases hfree : p.taskQueueMutex = none
  · rw [if_neg (not_not_intro hfree)] at hs
    by_cases hwait : (p.taskQueue.length == maxTaskQuqueSize && !p.isStopThreadpool) = true
    · rw [if_pos hwait] at hs
      cases hs
      rw [Bool.and_eq_true, beq_iff_eq, Bool.not_eq_true'] at hwait
      exact Step.producerWaits hpc hin hfree hwait.1 hwait.2
    · rw [if_neg hwait] at hs
      cases hs
      refine Step.producerPuts hpc hin hfree ?_
      intro hrun hfull
      exact hwait (by rw [Bool.and_eq_true, beq_iff_eq, hrun]; exact ⟨hfull, rfl⟩)
  · rw [if_pos hfree] at hs
    exact nomatch hs

/-- The notification of a producer wakes nobody, or a worker that sleeps. -/
theorem notifyGet_cases {p p' : ThreadPool Task} {j : Nat} {woken : Option Nat}
    (hpc : p.producers[j]? = some .notify)
    (hs : (p.setProducer j .idle).notifyGet woken = some p') :
    Step p (.producer j woken) p' := by
  cases woken with
  | none =>
      simp only [ThreadPool.notifyGet] at hs
      split at hs
      · rename_i hnone
        cases hs
        exact Step.producerWakesNone hpc hnone
      · exact nomatch hs
  | some i =>
      simp only [ThreadPool.notifyGet] at hs
      split at hs
      · rename_i hsleep
        cases hs
        exact Step.producerWakes hpc hsleep
      · exact nomatch hs

/-- The notification of a worker wakes nobody, or a producer that sleeps. -/
theorem notifyPut_cases {p p' : ThreadPool Task} {i : Nat} {woken : Option Nat}
    (hpc : p.workers[i]? = some .notify)
    (hs : (p.setWorker i .lock).notifyPut woken = some p') :
    Step p (.worker i woken) p' := by
  cases woken with
  | none =>
      simp only [ThreadPool.notifyPut] at hs
      split at hs
      · rename_i hnone
        cases hs
        exact Step.workerWakesNone hpc hnone
      · exact nomatch hs
  | some j =>
      simp only [ThreadPool.notifyPut] at hs
      split at hs
      · rename_i task hsleep
        cases hs
        exact Step.workerWakes hpc hsleep
      · exact nomatch hs

/-- **INVERSION**: the step function does one of the listed steps. -/
theorem step_cases {p p' : ThreadPool Task} {a : Act Task} (hs : p.step a = some p') :
    Step p a p' := by
  cases a with
  | worker i woken =>
      simp only [ThreadPool.step, ThreadPool.workerStep] at hs
      split at hs
      · exact takeTask_cases ‹_› (Or.inl rfl) hs
      · exact takeTask_cases ‹_› (Or.inr rfl) hs
      · cases hs
        exact Step.workerSleeps ‹_›
      · cases hs
        exact Step.workerEnds ‹_›
      · exact notifyPut_cases ‹_› hs
      · exact nomatch hs
  | wakeWorker i =>
      simp only [ThreadPool.step] at hs
      split at hs
      · cases hs
        exact Step.workerSpurious ‹_›
      · exact nomatch hs
  | addTask j task =>
      simp only [ThreadPool.step] at hs
      split at hs
      · cases hs
        exact Step.producerCalls ‹_›
      · exact nomatch hs
  | producer j woken =>
      simp only [ThreadPool.step, ThreadPool.producerStep] at hs
      split at hs
      · split at hs
        · cases hs
          exact Step.producerDeclined ‹_› ‹_›
        · rename_i hpc hrun
          cases hs
          exact Step.producerAdmitted hpc (Bool.eq_false_iff.mpr hrun)
      · exact putTask_cases ‹_› (Or.inl rfl) hs
      · exact putTask_cases ‹_› (Or.inr rfl) hs
      · cases hs
        exact Step.producerSleeps ‹_›
      · exact notifyGet_cases ‹_› hs
      · exact nomatch hs
  | wakeProducer j =>
      simp only [ThreadPool.step] at hs
      split at hs
      · cases hs
        exact Step.producerSpurious ‹_›
      · exact nomatch hs
  | stop =>
      simp only [ThreadPool.step] at hs
      split at hs
      · cases hs
        exact Step.stopCalled ‹_›
      · exact nomatch hs
  | terminate =>
      simp only [ThreadPool.step, ThreadPool.terminateStep] at hs
      split at hs
      · cases hs
        exact Step.stopStores ‹_›
      · cases hs
        exact Step.stopNotifies ‹_›
      · split at hs
        · cases hs
          exact Step.stopJoins ‹_› ‹_›
        · exact nomatch hs
      · split at hs
        · exact nomatch hs
        · rename_i hpc hfree
          cases hs
          exact Step.stopClears hpc (Decidable.not_not.mp hfree)
      · exact nomatch hs

/-! ## The mutex and the waiting threads -/

/-- No worker is between its verdict and its wait. -/
def NoWorkerWaits (p : ThreadPool Task) : Prop :=
  ∀ i : Nat, p.workers[i]? ≠ some WorkerPc.wait

/-- No producer is between its verdict and its wait. -/
def NoProducerWaits (p : ThreadPool Task) : Prop :=
  ∀ (j : Nat) (task : Task), p.producers[j]? ≠ some (ProducerPc.wait task)

/-- A thread at `wait` holds the mutex, so what it saw is still so: a waiting worker's queue is
    empty, a waiting producer's queue is full. -/
structure WaitInv (p : ThreadPool Task) : Prop where
  worker : ∀ i : Nat, p.workers[i]? = some WorkerPc.wait →
    p.taskQueueMutex = some (.worker i) ∧ p.taskQueue = []
  producer : ∀ (j : Nat) (task : Task), p.producers[j]? = some (ProducerPc.wait task) →
    p.taskQueueMutex = some (.producer j) ∧ p.taskQueue.length = maxTaskQuqueSize

/-- Where nobody is between the test and the wait there is nothing to keep. -/
theorem WaitInv.of_none {p : ThreadPool Task} (hw : NoWorkerWaits p)
    (hp : NoProducerWaits p) : WaitInv p :=
  ⟨fun i h => absurd h (hw i), fun j task h => absurd h (hp j task)⟩

/-- While the mutex is free nobody is at `wait`. -/
theorem WaitInv.none_of_free {p : ThreadPool Task} (hI : WaitInv p)
    (hfree : p.taskQueueMutex = none) : NoWorkerWaits p ∧ NoProducerWaits p := by
  constructor
  · intro i h
    have hm := (hI.worker i h).1
    rw [hfree] at hm
    exact nomatch hm
  · intro j task h
    have hm := (hI.producer j task h).1
    rw [hfree] at hm
    exact nomatch hm

/-- A worker at `wait` is the only thread there, so once it sleeps nobody is. -/
theorem WaitInv.worker_sleeps {p : ThreadPool Task} (hI : WaitInv p) {i : Nat}
    (hi : p.workers[i]? = some .wait) :
    NoWorkerWaits (p.setWorker i .asleep) ∧ NoProducerWaits p := by
  have hm := (hI.worker i hi).1
  constructor
  · intro i' h
    rcases getElem?_set_some h with ⟨-, heq⟩ | ⟨hne, h'⟩
    · exact nomatch heq
    · have hm' := (hI.worker i' h').1
      rw [hm] at hm'
      cases hm'
      exact hne rfl
  · intro j task h
    have hm' := (hI.producer j task h).1
    rw [hm] at hm'
    exact nomatch hm'

/-- A producer that starts to sleep was the only one at its test, since it holds the mutex. -/
theorem WaitInv.producer_sleeps {p : ThreadPool Task} (hI : WaitInv p) {j : Nat}
    {task : Task} (hj : p.producers[j]? = some (.wait task)) :
    NoWorkerWaits p ∧ NoProducerWaits (p.setProducer j (.asleep task)) := by
  have hm := (hI.producer j task hj).1
  constructor
  · intro i h
    have hm' := (hI.worker i h).1
    rw [hm] at hm'
    exact nomatch hm'
  · intro j' task' h
    rcases getElem?_set_some h with ⟨-, heq⟩ | ⟨hne, h'⟩
    · exact nomatch heq
    · have hm' := (hI.producer j' task' h').1
      rw [hm] at hm'
      cases hm'
      exact hne rfl

/-- A worker that moves to another place does not wait. -/
theorem NoWorkerWaits.setWorker {p : ThreadPool Task} (h : NoWorkerWaits p) (i : Nat)
    {pc : WorkerPc Task} (hpc : pc ≠ .wait) : NoWorkerWaits (p.setWorker i pc) := by
  intro i' hi'
  rcases getElem?_set_some hi' with ⟨-, heq⟩ | ⟨-, h'⟩
  · exact hpc heq
  · exact h i' h'

/-- A producer that moves to another place does not wait. -/
theorem NoProducerWaits.setProducer {p : ThreadPool Task} (h : NoProducerWaits p) (j : Nat)
    {pc : ProducerPc Task} (hpc : ∀ task, pc ≠ .wait task) :
    NoProducerWaits (p.setProducer j pc) := by
  intro j' task' hj'
  rcases getElem?_set_some hj' with ⟨-, heq⟩ | ⟨-, h'⟩
  · exact hpc task' heq
  · exact h j' task' h'

/-- Moving a worker anywhere but to `wait` keeps the invariant. -/
theorem WaitInv.setWorker {p : ThreadPool Task} (hI : WaitInv p) (i : Nat)
    {pc : WorkerPc Task} (hpc : pc ≠ .wait) : WaitInv (p.setWorker i pc) := by
  refine ⟨fun i' h => ?_, hI.producer⟩
  rcases getElem?_set_some h with ⟨-, heq⟩ | ⟨-, h'⟩
  · exact absurd heq hpc
  · exact hI.worker i' h'

/-- A producer that does not go to its wait keeps the invariant. -/
theorem WaitInv.setProducer {p : ThreadPool Task} (hI : WaitInv p) (j : Nat)
    {pc : ProducerPc Task} (hpc : ∀ task, pc ≠ .wait task) :
    WaitInv (p.setProducer j pc) := by
  refine ⟨hI.worker, fun j' task h => ?_⟩
  rcases getElem?_set_some h with ⟨-, heq⟩ | ⟨-, h'⟩
  · exact absurd heq (hpc task)
  · exact hI.producer j' task h'

/-- `notify_all` puts nobody at `wait`. -/
theorem notified_getElem? {l : List (WorkerPc Task)} {i : Nat} {pc : WorkerPc Task}
    (h : (l.map WorkerPc.notified)[i]? = some pc) (hpc : pc ≠ .woken) :
    l[i]? = some pc ∧ pc ≠ .asleep := by
  rw [List.getElem?_map] at h
  cases hl : l[i]? with
  | none =>
      rw [hl] at h
      exact nomatch h
  | some pc0 =>
      rw [hl] at h
      have h' : pc0.notified = pc := Option.some.inj h
      cases pc0 with
      | asleep => exact absurd h'.symm hpc
      | lock | wait | woken | run | notify | done =>
          subst h'
          exact ⟨rfl, fun hf => nomatch hf⟩

/-- **WAIT INVARIANT**, one step: entering `wait` needs the free mutex, and only then does the
    queue change. -/
theorem WaitInv.step {p p' : ThreadPool Task} {a : Act Task} (hI : WaitInv p)
    (hs : Step p a p') : WaitInv p' := by
  cases hs with
  | @workerWaits i w pc hpc hin hfree hempty hrun =>
      obtain ⟨hw, hp⟩ := hI.none_of_free hfree
      refine ⟨fun i' h => ?_, fun j task h => absurd h (hp j task)⟩
      rcases getElem?_set_some h with ⟨hi, -⟩ | ⟨-, h'⟩
      · subst hi
        exact ⟨rfl, hempty⟩
      · exact absurd h' (hw i')
  | workerLeaves => exact hI.setWorker _ (fun h => nomatch h)
  | workerTakes hpc hin hfree hqueue hrun =>
      obtain ⟨hw, hp⟩ := hI.none_of_free hfree
      exact WaitInv.of_none (hw.setWorker _ (fun h => nomatch h)) hp
  | workerSleeps hpc => exact WaitInv.of_none (hI.worker_sleeps hpc).1 (hI.worker_sleeps hpc).2
  | workerEnds => exact hI.setWorker _ (fun h => nomatch h)
  | workerWakesNone => exact hI.setWorker _ (fun h => nomatch h)
  | @workerWakes i j task hpc hsleep =>
      have hw : WaitInv (p.setWorker i .lock) := hI.setWorker i (fun h => nomatch h)
      exact hw.setProducer j (fun _ h => nomatch h)
  | workerSpurious => exact hI.setWorker _ (fun h => nomatch h)
  | producerCalls => exact hI.setProducer _ (fun _ h => nomatch h)
  | producerDeclined => exact hI.setProducer _ (fun _ h => nomatch h)
  | producerAdmitted => exact hI.setProducer _ (fun _ h => nomatch h)
  | @producerWaits j w pc task hpc hin hfree hfull hrun =>
      obtain ⟨hw, hp⟩ := hI.none_of_free hfree
      refine ⟨fun i h => absurd h (hw i), fun j' task' h => ?_⟩
      rcases getElem?_set_some h with ⟨hj, -⟩ | ⟨-, h'⟩
      · subst hj
        exact ⟨rfl, hfull⟩
      · exact absurd h' (hp j' task')
  | producerPuts hpc hin hfree hroom =>
      obtain ⟨hw, hp⟩ := hI.none_of_free hfree
      exact WaitInv.of_none hw (hp.setProducer _ (fun _ h => nomatch h))
  | producerSleeps hpc =>
      exact WaitInv.of_none (hI.producer_sleeps hpc).1 (hI.producer_sleeps hpc).2
  | producerWakesNone => exact hI.setProducer _ (fun _ h => nomatch h)
  | @producerWakes j i hpc hsleep =>
      have hp : WaitInv (p.setProducer j .idle) := hI.setProducer j (fun _ h => nomatch h)
      exact hp.setWorker i (fun h => nomatch h)
  | producerSpurious => exact hI.setProducer _ (fun _ h => nomatch h)
  | stopCalled => exact ⟨hI.worker, hI.producer⟩
  | stopStores => exact ⟨hI.worker, hI.producer⟩
  | stopNotifies =>
      refine ⟨fun i h => ?_, hI.producer⟩
      exact hI.worker i (notified_getElem? h (fun hf => nomatch hf)).1
  | stopJoins => exact ⟨hI.worker, hI.producer⟩
  | stopClears hpc hfree =>
      obtain ⟨hw, hp⟩ := hI.none_of_free hfree
      exact WaitInv.of_none hw hp

/-- A new pool has nobody at `wait`. -/
theorem waitInv_initial (n m : Nat) : WaitInv (ThreadPool.initial n m : ThreadPool Task) := by
  refine WaitInv.of_none (fun i h => ?_) (fun j task h => ?_)
  · exact nomatch List.eq_of_mem_replicate (List.mem_of_getElem? h)
  · exact nomatch List.eq_of_mem_replicate (List.mem_of_getElem? h)

/-- **WAIT INVARIANT** over every run. -/
theorem waitInv_of_reaches {ok : ThreadPool Task → Act Task → Prop} {p : ThreadPool Task}
    (h : Reaches poolSystem ok p) : WaitInv p := by
  refine h.invariant ?_ ?_
  · rintro p ⟨n, m, rfl⟩
    exact waitInv_initial n m
  · intro p a p' hI _ hs
    exact hI.step (step_cases hs)

/-! ## The running pool -/

/-- Before the first call of `stop`. -/
structure Running (p : ThreadPool Task) : Prop where
  stopper : p.stopper = .idle
  flag : p.isStopThreadpool = false
  bound : p.taskQueue.length ≤ maxTaskQuqueSize

/-- Every step but the call of `stop` leaves a running pool running: nobody pushes onto a full
    queue while the flag is unset. -/
theorem Running.step {p p' : ThreadPool Task} {a : Act Task} (hR : Running p)
    (ha : a ≠ .stop) (hs : Step p a p') : Running p' := by
  have hidle := hR.stopper
  cases hs with
  | workerTakes hpc hin hfree hqueue hrun =>
      refine ⟨hR.stopper, hR.flag, ?_⟩
      have hlen := hR.bound
      rw [hqueue, List.length_cons] at hlen
      exact Nat.le_of_succ_le hlen
  | @producerPuts j w pc task hpc hin hfree hroom =>
      refine ⟨hR.stopper, hR.flag, ?_⟩
      have hlt := Nat.lt_of_le_of_ne hR.bound (hroom hR.flag)
      show (p.taskQueue ++ [task]).length ≤ maxTaskQuqueSize
      rw [List.length_append, List.length_singleton]
      exact hlt
  | stopCalled => exact absurd rfl ha
  | stopStores hpc | stopNotifies hpc | stopJoins hpc | stopClears hpc =>
      rw [hidle] at hpc
      exact nomatch hpc
  | workerWaits | workerLeaves | workerSleeps | workerEnds | workerWakesNone | workerWakes
  | workerSpurious | producerCalls | producerDeclined | producerAdmitted | producerWaits
  | producerSleeps | producerWakesNone | producerWakes | producerSpurious =>
      exact ⟨hR.stopper, hR.flag, hR.bound⟩

/-- A run that is still before the first call of `stop` has never called it. -/
theorem reaches_without_stop {p : ThreadPool Task} (h : Reachable poolSystem p) :
    p.stopper = .idle → Reaches poolSystem (fun _ a => a ≠ .stop) p := by
  refine Reaches.invariant (I := fun p => p.stopper = .idle →
    Reaches poolSystem (fun _ a => a ≠ Act.stop) p) ?_ ?_ h
  · intro p h0 _
    exact Reaches.start h0
  · intro p a p' ih _ hs hidle
    have hstep := step_cases hs
    have hne : a ≠ .stop ∧ p.stopper = .idle := by
      cases hstep with
      | stopCalled | stopStores | stopNotifies | stopJoins | stopClears =>
          exact nomatch hidle
      | workerWaits | workerLeaves | workerTakes | workerSleeps | workerEnds
      | workerWakesNone | workerWakes | workerSpurious | producerCalls | producerDeclined
      | producerAdmitted | producerWaits | producerPuts | producerSleeps
      | producerWakesNone | producerWakes | producerSpurious =>
          exact ⟨fun hf => (nomatch hf), hidle⟩
    exact Reaches.step (ih hne.2) hne.1 hs

/-- Before the stop, the flag is unset and the queue within its bound. -/
theorem running_of_reaches {p : ThreadPool Task}
    (h : Reaches poolSystem (fun _ a => a ≠ .stop) p) : Running p := by
  refine h.invariant ?_ ?_
  · rintro p ⟨n, m, rfl⟩
    exact ⟨rfl, rfl, Nat.zero_le _⟩
  · intro p a p' hR ha hs
    exact hR.step ha (step_cases hs)

/-! ## The two condition variables as channels -/

/-- `task_get_`: workers wait for queued tasks. -/
def ThreadPool.getChannel (p : ThreadPool Task) : Channel where
  asleep := p.workers.countP WorkerPc.isAsleep
  owed := p.producers.countP ProducerPc.isEnqueued
  woken := p.workers.countP WorkerPc.isWoken
  items := p.taskQueue.length

/-- `task_put_`: producers wait for free slots. -/
def ThreadPool.putChannel (p : ThreadPool Task) : Channel where
  asleep := p.producers.countP ProducerPc.isAsleep
  owed := p.workers.countP WorkerPc.isPopped
  woken := p.producers.countP ProducerPc.isWoken
  items := maxTaskQuqueSize - p.taskQueue.length

/-- The counters of the workers after one of them has moved. -/
theorem worker_counts {p : ThreadPool Task} {i : Nat} {pc : WorkerPc Task}
    (hpc : p.workers[i]? = some pc) (pc' : WorkerPc Task) :
    ((p.setWorker i pc').workers.countP WorkerPc.isAsleep + (if pc.isAsleep then 1 else 0)
      = p.workers.countP WorkerPc.isAsleep + (if pc'.isAsleep then 1 else 0))
    ∧ ((p.setWorker i pc').workers.countP WorkerPc.isWoken + (if pc.isWoken then 1 else 0)
      = p.workers.countP WorkerPc.isWoken + (if pc'.isWoken then 1 else 0))
    ∧ ((p.setWorker i pc').workers.countP WorkerPc.isPopped + (if pc.isPopped then 1 else 0)
      = p.workers.countP WorkerPc.isPopped + (if pc'.isPopped then 1 else 0)) :=
  ⟨countP_move _ hpc pc', countP_move _ hpc pc', countP_move _ hpc pc'⟩

/-- The counters of the producers after one of them has moved. -/
theorem producer_counts {p : ThreadPool Task} {j : Nat} {pc : ProducerPc Task}
    (hpc : p.producers[j]? = some pc) (pc' : ProducerPc Task) :
    ((p.setProducer j pc').producers.countP ProducerPc.isAsleep
        + (if pc.isAsleep then 1 else 0)
      = p.producers.countP ProducerPc.isAsleep + (if pc'.isAsleep then 1 else 0))
    ∧ ((p.setProducer j pc').producers.countP ProducerPc.isWoken
        + (if pc.isWoken then 1 else 0)
      = p.producers.countP ProducerPc.isWoken + (if pc'.isWoken then 1 else 0))
    ∧ ((p.setProducer j pc').producers.countP ProducerPc.isEnqueued
        + (if pc.isEnqueued then 1 else 0)
      = p.producers.countP ProducerPc.isEnqueued + (if pc'.isEnqueued then 1 else 0)) :=
  ⟨countP_move _ hpc pc', countP_move _ hpc pc', countP_move _ hpc pc'⟩

/-- **`task_get_` IS A CHANNEL**: each step of a running pool is one event of it, or none. -/
theorem getChannel_step {p p' : ThreadPool Task} {a : Act Task} (hW : WaitInv p)
    (hR : Running p) (ha : a ≠ .stop) (hs : Step p a p') :
    p'.getChannel = p.getChannel ∨ ∃ e, p.getChannel.step e = some p'.getChannel := by
  have hidle := hR.stopper
  have hflag := hR.flag
  cases hs with
  | workerWaits hpc hin hfree hempty hrun =>
      have hc := worker_counts hpc .wait
      rcases hin with rfl | rfl
      · refine Or.inl (Channel.eq_of ?_)
        simp_all [ThreadPool.getChannel]
      · refine Or.inr ⟨.retreat, Channel.retreat_of ?_⟩
        simp_all [ThreadPool.getChannel]
  | workerLeaves hpc hin hfree hstop =>
      rw [hflag] at hstop
      exact nomatch hstop
  | @workerTakes i w pc task rest hpc hin hfree hqueue hrun =>
      have hc := worker_counts hpc (.run task)
      rcases hin with rfl | rfl
      · refine Or.inr ⟨.steal, Channel.steal_of ?_⟩
        simp_all [ThreadPool.getChannel]
      · refine Or.inr ⟨.claim, Channel.claim_of ?_⟩
        simp_all [ThreadPool.getChannel]
  | workerSleeps hpc =>
      have hc := worker_counts hpc .asleep
      have hempty := (hW.worker _ hpc).2
      refine Or.inr ⟨.sleep, Channel.sleep_of ?_⟩
      simp_all [ThreadPool.getChannel]
  | workerEnds hpc =>
      have hc := worker_counts hpc .notify
      refine Or.inl (Channel.eq_of ?_)
      simp_all [ThreadPool.getChannel]
  | workerWakesNone hpc hnone =>
      have hc := worker_counts hpc .lock
      refine Or.inl (Channel.eq_of ?_)
      simp_all [ThreadPool.getChannel]
  | @workerWakes i j task hpc hsleep =>
      have hc := worker_counts hpc .lock
      have hd := producer_counts (p := p.setWorker i .lock) hsleep (.woken task)
      refine Or.inl (Channel.eq_of ?_)
      simp_all [ThreadPool.getChannel]
  | workerSpurious hpc =>
      have hc := worker_counts hpc .woken
      refine Or.inr ⟨.wake, Channel.wake_of ?_⟩
      simp_all [ThreadPool.getChannel]
  | @producerCalls j task hpc =>
      have hc := producer_counts hpc (.stopTest task)
      refine Or.inl (Channel.eq_of ?_)
      simp_all [ThreadPool.getChannel]
  | producerDeclined hpc hstop =>
      rw [hflag] at hstop
      exact nomatch hstop
  | @producerAdmitted j w task hpc hrun =>
      have hc := producer_counts hpc (.lock task)
      refine Or.inl (Channel.eq_of ?_)
      simp_all [ThreadPool.getChannel]
  | @producerWaits j w pc task hpc hin hfree hfull hrun =>
      have hc := producer_counts hpc (.wait task)
      refine Or.inl (Channel.eq_of ?_)
      rcases hin with rfl | rfl <;> simp_all [ThreadPool.getChannel]
  | producerPuts hpc hin hfree hroom =>
      have hc := producer_counts hpc .notify
      refine Or.inr ⟨.post, Channel.post_of ?_⟩
      rcases hin with rfl | rfl <;> simp_all [ThreadPool.getChannel]
  | @producerSleeps j w task hpc =>
      have hc := producer_counts hpc (.asleep task)
      refine Or.inl (Channel.eq_of ?_)
      simp_all [ThreadPool.getChannel]
  | producerWakesNone hpc hnone =>
      have hc := producer_counts hpc .idle
      refine Or.inr ⟨.signal, Channel.signal_idle_of ?_⟩
      simp_all [ThreadPool.getChannel]
  | @producerWakes j i hpc hsleep =>
      have hc := producer_counts hpc .idle
      have hd := worker_counts (p := p.setProducer j .idle) hsleep .woken
      refine Or.inr ⟨.signal, Channel.signal_of ?_⟩
      simp_all [ThreadPool.getChannel]
  | @producerSpurious j task hpc =>
      have hc := producer_counts hpc (.woken task)
      refine Or.inl (Channel.eq_of ?_)
      simp_all [ThreadPool.getChannel]
  | stopCalled => exact absurd rfl ha
  | stopStores hpc | stopNotifies hpc | stopJoins hpc | stopClears hpc =>
      rw [hidle] at hpc
      exact nomatch hpc

/-- **`task_put_` IS A CHANNEL**, whose items are the free slots. -/
theorem putChannel_step {p p' : ThreadPool Task} {a : Act Task} (hW : WaitInv p)
    (hR : Running p) (ha : a ≠ .stop) (hs : Step p a p') :
    p'.putChannel = p.putChannel ∨ ∃ e, p.putChannel.step e = some p'.putChannel := by
  have hidle := hR.stopper
  have hflag := hR.flag
  have hbound := hR.bound
  cases hs with
  | workerWaits hpc hin hfree hempty hrun =>
      have hc := worker_counts hpc .wait
      refine Or.inl (Channel.eq_of ?_)
      rcases hin with rfl | rfl <;> simp_all [ThreadPool.putChannel]
  | workerLeaves hpc hin hfree hstop =>
      rw [hflag] at hstop
      exact nomatch hstop
  | @workerTakes i w pc task rest hpc hin hfree hqueue hrun =>
      have hc := worker_counts hpc (.run task)
      have hslot : maxTaskQuqueSize - rest.length
          = maxTaskQuqueSize - p.taskQueue.length + 1 := by
        rw [hqueue, List.length_cons] at hbound ⊢
        omega
      refine Or.inr ⟨.post, Channel.post_of ?_⟩
      rcases hin with rfl | rfl <;> simp_all [ThreadPool.putChannel]
  | workerSleeps hpc =>
      have hc := worker_counts hpc .asleep
      refine Or.inl (Channel.eq_of ?_)
      simp_all [ThreadPool.putChannel]
  | workerEnds hpc =>
      have hc := worker_counts hpc .notify
      refine Or.inl (Channel.eq_of ?_)
      simp_all [ThreadPool.putChannel]
  | workerWakesNone hpc hnone =>
      have hc := worker_counts hpc .lock
      refine Or.inr ⟨.signal, Channel.signal_idle_of ?_⟩
      simp_all [ThreadPool.putChannel]
  | @workerWakes i j task hpc hsleep =>
      have hc := worker_counts hpc .lock
      have hd := producer_counts (p := p.setWorker i .lock) hsleep (.woken task)
      refine Or.inr ⟨.signal, Channel.signal_of ?_⟩
      simp_all [ThreadPool.putChannel]
  | workerSpurious hpc =>
      have hc := worker_counts hpc .woken
      refine Or.inl (Channel.eq_of ?_)
      simp_all [ThreadPool.putChannel]
  | @producerCalls j task hpc =>
      have hc := producer_counts hpc (.stopTest task)
      refine Or.inl (Channel.eq_of ?_)
      simp_all [ThreadPool.putChannel]
  | producerDeclined hpc hstop =>
      rw [hflag] at hstop
      exact nomatch hstop
  | @producerAdmitted j w task hpc hrun =>
      have hc := producer_counts hpc (.lock task)
      refine Or.inl (Channel.eq_of ?_)
      simp_all [ThreadPool.putChannel]
  | @producerWaits j w pc task hpc hin hfree hfull hrun =>
      have hc := producer_counts hpc (.wait task)
      rcases hin with rfl | rfl
      · refine Or.inl (Channel.eq_of ?_)
        simp_all [ThreadPool.putChannel]
      · refine Or.inr ⟨.retreat, Channel.retreat_of ?_⟩
        simp_all [ThreadPool.putChannel]
  | @producerPuts j w pc task hpc hin hfree hroom =>
      have hc := producer_counts hpc .notify
      have hslot : maxTaskQuqueSize - (p.taskQueue.length + 1) + 1
          = maxTaskQuqueSize - p.taskQueue.length := by
        have hlt := Nat.lt_of_le_of_ne hbound (hroom hflag)
        omega
      rcases hin with rfl | rfl
      · refine Or.inr ⟨.steal, Channel.steal_of ?_⟩
        simp_all [ThreadPool.putChannel]
      · refine Or.inr ⟨.claim, Channel.claim_of ?_⟩
        simp_all [ThreadPool.putChannel]
  | @producerSleeps j w task hpc =>
      have hc := producer_counts hpc (.asleep task)
      have hfull := (hW.producer _ _ hpc).2
      refine Or.inr ⟨.sleep, Channel.sleep_of ?_⟩
      simp_all [ThreadPool.putChannel]
  | producerWakesNone hpc hnone =>
      have hc := producer_counts hpc .idle
      refine Or.inl (Channel.eq_of ?_)
      simp_all [ThreadPool.putChannel]
  | @producerWakes j i hpc hsleep =>
      have hc := producer_counts hpc .idle
      have hd := worker_counts (p := p.setProducer j .idle) hsleep .woken
      refine Or.inl (Channel.eq_of ?_)
      simp_all [ThreadPool.putChannel]
  | @producerSpurious j task hpc =>
      have hc := producer_counts hpc (.woken task)
      refine Or.inr ⟨.wake, Channel.wake_of ?_⟩
      simp_all [ThreadPool.putChannel]
  | stopCalled => exact absurd rfl ha
  | stopStores hpc | stopNotifies hpc | stopJoins hpc | stopClears hpc =>
      rw [hidle] at hpc
      exact nomatch hpc

theorem countP_replicate_eq_zero {Pl : Type} {q : Pl → Bool} {x : Pl} (h : q x = false)
    (n : Nat) : (List.replicate n x).countP q = 0 := by
  rw [List.countP_replicate, h]
  rfl

/-- **NO LOST WAKEUP**: while the pool is running, beside a sleeping worker every queued task,
    and beside a sleeping producer every free slot, is covered by a notification still to be
    issued or by a thread already woken. -/
theorem no_lost_wakeup {p : ThreadPool Task} (h : Reachable poolSystem p)
    (hrun : p.stopper = .idle) :
    (0 < p.workers.countP WorkerPc.isAsleep →
      p.taskQueue.length ≤ p.producers.countP ProducerPc.isEnqueued
        + p.workers.countP WorkerPc.isWoken)
    ∧ (0 < p.producers.countP ProducerPc.isAsleep →
      maxTaskQuqueSize - p.taskQueue.length ≤ p.workers.countP WorkerPc.isPopped
        + p.producers.countP ProducerPc.isWoken) := by
  have hruns := reaches_without_stop h hrun
  have hJ : ∀ q : ThreadPool Task, Reaches poolSystem (fun _ a => a ≠ Act.stop) q →
      WaitInv q ∧ Running q :=
    fun q hq => ⟨waitInv_of_reaches hq, running_of_reaches hq⟩
  constructor
  · refine Channel.covered (hruns.simulation ThreadPool.getChannel hJ ?_ ?_)
    · rintro q ⟨n, m, rfl⟩
      exact countP_replicate_eq_zero rfl n
    · intro q a q' hq ha hs
      exact getChannel_step hq.1 hq.2 ha (step_cases hs)
  · refine Channel.covered (hruns.simulation ThreadPool.putChannel hJ ?_ ?_)
    · rintro q ⟨n, m, rfl⟩
      exact countP_replicate_eq_zero rfl m
    · intro q a q' hq ha hs
      exact putChannel_step hq.1 hq.2 ha (step_cases hs)

/-- A worker fell asleep, then a producer enqueued a task and has not notified yet. -/
def beforeNotify : ThreadPool Nat where
  isStopThreadpool := false
  taskQueue := [7]
  taskQueueMutex := none
  workers := [.asleep]
  producers := [.notify]
  stopper := .idle
  enqueued := [7]
  popped := []

/-- The queued task beside the sleeping worker is covered by the notification still owed. -/
theorem no_lost_wakeup_before_notify :
    beforeNotify.taskQueue.length
      ≤ beforeNotify.producers.countP ProducerPc.isEnqueued
        + beforeNotify.workers.countP WorkerPc.isWoken := by
  have hreach : Reachable poolSystem (ThreadPool.initial 1 1 : ThreadPool Nat) :=
    Reachable.start ⟨1, 1, rfl⟩
  have hexec : exec poolSystem (ThreadPool.initial 1 1)
      [.worker 0 none, .worker 0 none, .addTask 0 7, .producer 0 none, .producer 0 none]
      = some beforeNotify := rfl
  exact (no_lost_wakeup (hreach.exec hexec) rfl).1 (by decide)

end EasyRpcThreadPool
