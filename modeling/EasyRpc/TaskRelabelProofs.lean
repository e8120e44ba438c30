import EasyRpc.ThreadPoolProofs

/-! # Relabelling tasks — the pool never looks at them

    `thread_pool` moves tasks and runs them; nothing it decides depends on what a task is.  So a
    pool whose tasks are replaced by others, one for one, takes the same steps (`step_map`).

    Models that give a task different fields (`route`'s reference, the result that a handler has
    left) have pools that agree once both are relabelled to what the tasks have in common, and a
    step of the one is then a step of the other (`step_agrees`). -/

namespace EasyRpcTaskRelabel

open EasyRpcThreadPool

variable {Task Task' Common : Type} (f : Task → Task')

/-- A worker with its task renamed. -/
def mapWorker : WorkerPc Task → WorkerPc Task'
  | .lock => .lock
  | .wait => .wait
  | .asleep => .asleep
  | .woken => .woken
  | .run task => .run (f task)
  | .notify => .notify
  | .done => .done

/-- A producer with its task renamed. -/
def mapProducer : ProducerPc Task → ProducerPc Task'
  | .idle => .idle
  | .stopTest task => .stopTest (f task)
  | .lock task => .lock (f task)
  | .wait task => .wait (f task)
  | .asleep task => .asleep (f task)
  | .woken task => .woken (f task)
  | .notify => .notify

/-- An act with the task it brings renamed. -/
def mapAct : Act Task → Act Task'
  | .worker i woken => .worker i woken
  | .wakeWorker i => .wakeWorker i
  | .addTask j task => .addTask j (f task)
  | .producer j woken => .producer j woken
  | .wakeProducer j => .wakeProducer j
  | .stop => .stop
  | .terminate => .terminate

/-- The pool with every task replaced. -/
def mapPool (p : ThreadPool Task) : ThreadPool Task' where
  isStopThreadpool := p.isStopThreadpool
  taskQueue := p.taskQueue.map f
  taskQueueMutex := p.taskQueueMutex
  workers := p.workers.map (mapWorker f)
  producers := p.producers.map (mapProducer f)
  stopper := p.stopper
  enqueued := p.enqueued.map f
  popped := p.popped.map f

/-! ## Places -/

section Places

variable (p : ThreadPool Task)

theorem workers_map (i : Nat) :
    (mapPool f p).workers[i]? = (p.workers[i]?).map (mapWorker f) :=
  List.getElem?_map

theorem producers_map (j : Nat) :
    (mapPool f p).producers[j]? = (p.producers[j]?).map (mapProducer f) :=
  List.getElem?_map

theorem setWorker_map (i : Nat) (pc : WorkerPc Task) :
    (mapPool f p).setWorker i (mapWorker f pc) = mapPool f (p.setWorker i pc) := by
  simp only [ThreadPool.setWorker, mapPool, List.map_set]

theorem setProducer_map (j : Nat) (pc : ProducerPc Task) :
    (mapPool f p).setProducer j (mapProducer f pc) = mapPool f (p.setProducer j pc) := by
  simp only [ThreadPool.setProducer, mapPool, List.map_set]

/-- A place and its relabelling count alike where the predicate does not look at the task. -/
theorem countP_workers (q : WorkerPc Task → Bool) (q' : WorkerPc Task' → Bool)
    (hq : ∀ pc, q' (mapWorker f pc) = q pc) :
    (mapPool f p).workers.countP q' = p.workers.countP q := by
  show (p.workers.map (mapWorker f)).countP q' = _
  rw [List.countP_map]
  exact List.countP_congr fun pc _ => by rw [Function.comp, hq]

/-- A count that does not look at the tasks is the same after renaming. -/
theorem countP_producers (q : ProducerPc Task → Bool) (q' : ProducerPc Task' → Bool)
    (hq : ∀ pc, q' (mapProducer f pc) = q pc) :
    (mapPool f p).producers.countP q' = p.producers.countP q := by
  show (p.producers.map (mapProducer f)).countP q' = _
  rw [List.countP_map]
  exact List.countP_congr fun pc _ => by rw [Function.comp, hq]

end Places

theorem mapPool_initial (n m : Nat) :
    mapPool f (.initial n m : ThreadPool Task) = .initial n m := by
  simp only [mapPool, ThreadPool.initial, List.map_replicate, List.map_nil, mapWorker, mapProducer]

/-! ## Steps -/

section Steps

variable (p : ThreadPool Task)

theorem notifyGet_map (woken : Option Nat) :
    (mapPool f p).notifyGet woken = (p.notifyGet woken).map (mapPool f) := by
  cases woken with
  | none =>
      have hcount := countP_workers f p WorkerPc.isAsleep WorkerPc.isAsleep fun pc => by
        cases pc <;> rfl
      simp only [ThreadPool.notifyGet, hcount]
      split <;> rfl
  | some i =>
      simp only [ThreadPool.notifyGet, workers_map]
      cases p.workers[i]? with
      | none => rfl
      | some pc =>
          cases pc with
          | asleep => exact congrArg some (setWorker_map f p i .woken)
          | lock | wait | woken | run | notify | done => rfl

theorem notifyPut_map (woken : Option Nat) :
    (mapPool f p).notifyPut woken = (p.notifyPut woken).map (mapPool f) := by
  cases woken with
  | none =>
      have hcount := countP_producers f p ProducerPc.isAsleep ProducerPc.isAsleep fun pc => by
        cases pc <;> rfl
      simp only [ThreadPool.notifyPut, hcount]
      split <;> rfl
  | some j =>
      simp only [ThreadPool.notifyPut, producers_map]
      cases p.producers[j]? with
      | none => rfl
      | some pc =>
          cases pc with
          | asleep task => exact congrArg some (setProducer_map f p j (.woken task))
          | idle | stopTest | lock | wait | woken | notify => rfl

theorem takeTask_map (i : Nat) :
    (mapPool f p).takeTask i = (p.takeTask i).map (mapPool f) := by
  obtain ⟨stop, queue, mutex, workers, producers, stopper, enqueued, popped⟩ := p
  cases mutex with
  | some id => rfl
  | none =>
      cases stop with
      | true =>
          cases queue <;>
            simp [ThreadPool.takeTask, ThreadPool.setWorker, mapPool, List.map_set, mapWorker]
      | false =>
          cases queue <;>
            simp [ThreadPool.takeTask, ThreadPool.setWorker, mapPool, List.map_set, mapWorker]

theorem putTask_map (j : Nat) (task : Task) :
    (mapPool f p).putTask j (f task) = (p.putTask j task).map (mapPool f) := by
  obtain ⟨stop, queue, mutex, workers, producers, stopper, enqueued, popped⟩ := p
  cases mutex with
  | some id => rfl
  | none =>
      simp only [ThreadPool.putTask, mapPool, List.length_map]
      by_cases hwait : (queue.length == maxTaskQuqueSize && !stop) = true
      · simp [hwait, ThreadPool.setProducer, List.map_set, mapProducer, mapPool]
      · simp [hwait, ThreadPool.setProducer, List.map_set, mapProducer, mapPool]

theorem workerStep_map (i : Nat) (woken : Option Nat) :
    (mapPool f p).workerStep i woken = (p.workerStep i woken).map (mapPool f) := by
  simp only [ThreadPool.workerStep, workers_map]
  cases p.workers[i]? with
  | none => rfl
  | some pc =>
      cases pc with
      | lock | woken => exact takeTask_map f p i
      | wait =>
          exact congrArg (fun p => some { p with taskQueueMutex := none })
            (setWorker_map f p i .asleep)
      | run task => exact congrArg some (setWorker_map f p i .notify)
      | notify =>
          show ((mapPool f p).setWorker i (mapWorker f .lock)).notifyPut woken = _
          rw [setWorker_map, notifyPut_map]
      | asleep | done => rfl

theorem producerStep_map (j : Nat) (woken : Option Nat) :
    (mapPool f p).producerStep j woken = (p.producerStep j woken).map (mapPool f) := by
  simp only [ThreadPool.producerStep, producers_map]
  cases p.producers[j]? with
  | none => rfl
  | some pc =>
      cases pc with
      | stopTest task =>
          have hflag : (mapPool f p).isStopThreadpool = p.isStopThreadpool := rfl
          simp only [mapProducer, Option.map_some, hflag]
          split
          · exact congrArg some (setProducer_map f p j .idle)
          · exact congrArg some (setProducer_map f p j (.lock task))
      | lock task | woken task => exact putTask_map f p j task
      | wait task =>
          exact congrArg (fun p => some { p with taskQueueMutex := none })
            (setProducer_map f p j (.asleep task))
      | notify =>
          show ((mapPool f p).setProducer j (mapProducer f .idle)).notifyGet woken = _
          rw [setProducer_map, notifyGet_map]
      | idle | asleep => rfl

theorem terminateStep_map :
    (mapPool f p).terminateStep = (p.terminateStep).map (mapPool f) := by
  obtain ⟨stop, queue, mutex, workers, producers, stopper, enqueued, popped⟩ := p
  cases stopper with
  | idle | store | returned => rfl
  | notifyAll =>
      have hnotified : (workers.map (mapWorker f)).map WorkerPc.notified
          = (workers.map WorkerPc.notified).map (mapWorker f) := by
        rw [List.map_map, List.map_map]
        exact List.map_congr_left fun pc _ => by cases pc <;> rfl
      exact congrArg some (by simp only [mapPool, hnotified])
  | join =>
      have hdone : (workers.map (mapWorker f)).all WorkerPc.isDone
          = workers.all WorkerPc.isDone := by
        rw [List.all_map]
        exact congrArg workers.all (funext fun pc => by cases pc <;> rfl)
      simp only [ThreadPool.terminateStep, mapPool, hdone]
      split <;> rfl
  | clear =>
      cases mutex <;> rfl

/-- **RELABELLING**: the relabelled pool takes the relabelled step. -/
theorem step_map (a : Act Task) :
    (mapPool f p).step (mapAct f a) = (p.step a).map (mapPool f) := by
  cases a with
  | worker i woken => exact workerStep_map f p i woken
  | producer j woken => exact producerStep_map f p j woken
  | terminate => exact terminateStep_map f p
  | wakeWorker i => exact notifyGet_map f p (some i)
  | wakeProducer j => exact notifyPut_map f p (some j)
  | addTask j task =>
      simp only [ThreadPool.step, mapAct, producers_map]
      cases p.producers[j]? with
      | none => rfl
      | some pc =>
          cases pc with
          | idle => exact congrArg some (setProducer_map f p j (.stopTest task))
          | stopTest | lock | wait | asleep | woken | notify => rfl
  | stop =>
      obtain ⟨stop, queue, mutex, workers, producers, stopper, enqueued, popped⟩ := p
      cases stopper <;> rfl

end Steps

/-! ## Pools that agree -/

/-- **AGREEMENT**: where two pools hold the same but for labels, so do they after the same step,
    and if the one can take it, so can the other. -/
theorem step_agrees {f : Task → Common} {g : Task' → Common} {p p' : ThreadPool Task}
    {q : ThreadPool Task'} {a : Act Task} {c : Act Task'} (hpools : mapPool f p = mapPool g q)
    (hacts : mapAct f a = mapAct g c) (hs : p.step a = some p') :
    ∃ q', q.step c = some q' ∧ mapPool f p' = mapPool g q' := by
  have hstep := step_map g q c
  rw [← hpools, ← hacts, step_map f p a, hs] at hstep
  obtain ⟨q', hq, heq⟩ := Option.map_eq_some_iff.mp hstep.symm
  exact ⟨q', hq, heq.symm⟩

/-- A thread between two calls is so whatever the labels. -/
theorem idle_agrees {f : Task → Common} {g : Task' → Common} {p : ThreadPool Task}
    {q : ThreadPool Task'} (hpools : mapPool f p = mapPool g q) {j : Nat}
    (hidle : p.producers[j]? = some .idle) : q.producers[j]? = some .idle := by
  have hplace : (mapPool g q).producers[j]? = some .idle := by
    rw [← hpools, producers_map, hidle]
    rfl
  rw [producers_map] at hplace
  obtain ⟨pc, hpc, hmap⟩ := Option.map_eq_some_iff.mp hplace
  cases pc with
  | idle => exact hpc
  | stopTest | lock | wait | asleep | woken | notify => cases hmap

/-- A label that a worker does not lose by a change of its task makes no difference. -/
theorem mapPool_setWorker {f : Task → Common} {p : ThreadPool Task} {i : Nat} {task task' : Task}
    (hrun : p.workers[i]? = some (.run task)) (hsame : f task' = f task) :
    mapPool f (p.setWorker i (.run task')) = mapPool f p := by
  rw [← setWorker_map]
  have hself : (mapPool f p).workers[i]? = some (mapWorker f (.run task')) := by
    rw [workers_map, hrun]
    show some (WorkerPc.run (f task)) = some (.run (f task'))
    rw [hsame]
  obtain ⟨hi, hget⟩ := List.getElem?_eq_some_iff.mp hself
  have hset : (mapPool f p).workers.set i (mapWorker f (.run task')) = (mapPool f p).workers := by
    rw [← hget, List.set_getElem_self]
  rw [ThreadPool.setWorker, hset]

end EasyRpcTaskRelabel
