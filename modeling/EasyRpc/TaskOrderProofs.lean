import EasyRpc.TaskCustodyProofs
import EasyRpc.ThreadPoolStopProofs

/-! # The order of tasks — first in, first out, up to the stop

    Producers and workers meet only in the queue: a producer appends at the back, a worker takes
    the front, each with the mutex held and the other side's condition checked again.  As long as
    the stop flag is unset the popped tasks and the queue make up the enqueued tasks, in order.
    Once it is set no worker takes a task any more, so what has been popped stays as it is, while
    late producers may still append and `clean_task_queue` drops what is left
    (`tasks_in_order`). -/

namespace EasyRpcTaskOrder

open Transition ThreadTable EasyRpcThreadPool EasyRpcThreadPoolStop EasyRpcTaskCustody

variable {Task : Type}

/-- What went through the queue, against what is in it and what is running. -/
structure OrderInv (p : ThreadPool Task) : Prop where
  inOrder : p.isStopThreadpool = false → p.popped ++ p.taskQueue = p.enqueued
  isPrefix : p.popped <+: p.enqueued
  running : ∀ q : Task → Bool, p.workers.countP (runs q) ≤ p.popped.countP q

/-- A worker that takes up no task runs none more than before. -/
theorem countP_runs_setWorker {p : ThreadPool Task} {i : Nat} {pc pc' : WorkerPc Task}
    (hpc : p.workers[i]? = some pc) {q : Task → Bool} (hnone : runs q pc' = false) :
    (p.setWorker i pc').workers.countP (runs q) ≤ p.workers.countP (runs q) := by
  have hmove := countP_move (runs q) hpc pc'
  rw [hnone] at hmove
  exact Nat.le_of_add_right_le (Nat.le_of_eq hmove)

/-- Steps that leave the queue and its record alone, and start no task. -/
theorem OrderInv.congr {p p' : ThreadPool Task} (h : OrderInv p)
    (hflag : p'.isStopThreadpool = false → p.isStopThreadpool = false)
    (hqueue : p'.taskQueue = p.taskQueue) (hpopped : p'.popped = p.popped)
    (henqueued : p'.enqueued = p.enqueued)
    (hruns : ∀ q : Task → Bool, p'.workers.countP (runs q) ≤ p.workers.countP (runs q)) :
    OrderInv p' := by
  refine ⟨?_, ?_, ?_⟩
  · intro hrun
    rw [hpopped, hqueue, henqueued]
    exact h.inOrder (hflag hrun)
  · rw [hpopped, henqueued]
    exact h.isPrefix
  · intro q
    rw [hpopped]
    exact Nat.le_trans (hruns q) (h.running q)

/-- **ORDER INVARIANT**, one step: a worker takes the front of the queue, a producer appends to
    its back, and the queue is cleared only under the flag. -/
theorem OrderInv.step {p p' : ThreadPool Task} {a : Act Task} (hF : FlagInv p) (hI : OrderInv p)
    (hs : Step p a p') : OrderInv p' := by
  cases hs with
  | @workerTakes i w pc task rest hpc hin hfree hqueue hrun =>
      have heq := hI.inOrder hrun
      rw [hqueue] at heq
      have happend : p.popped ++ [task] ++ rest = p.enqueued := by
        rw [List.append_assoc]
        exact heq
      refine ⟨fun _ => happend, ⟨rest, happend⟩, ?_⟩
      intro q
      have hmove := countP_move (runs q) hpc (.run task)
      have hold : runs q pc = false := by rcases hin with rfl | rfl <;> rfl
      have hle := hI.running q
      show (p.workers.set i (.run task)).countP (runs q) ≤ (p.popped ++ [task]).countP q
      rw [List.countP_append, List.countP_singleton]
      rw [hold] at hmove
      simp only [runs] at hmove
      exact Nat.le_trans (Nat.le_of_eq hmove) (Nat.add_le_add_right hle _)
  | @producerPuts j w pc task hpc hin hfree hroom =>
      refine ⟨?_, hI.isPrefix.trans (List.prefix_append _ _), hI.running⟩
      intro hrun
      show p.popped ++ (p.taskQueue ++ [task]) = p.enqueued ++ [task]
      rw [← List.append_assoc, hI.inOrder hrun]
  | workerWaits hpc | workerLeaves hpc | workerSleeps hpc | workerEnds hpc | workerWakesNone hpc
  | workerSpurious hpc =>
      exact hI.congr id rfl rfl rfl fun q => countP_runs_setWorker hpc rfl
  | workerWakes hpc hsleep =>
      exact hI.congr id rfl rfl rfl fun q => countP_runs_setWorker hpc rfl
  | producerWakes hpc hsleep =>
      exact hI.congr id rfl rfl rfl fun q => countP_runs_setWorker hsleep rfl
  | producerCalls | producerDeclined | producerAdmitted | producerWaits | producerSleeps
  | producerWakesNone | producerSpurious | stopCalled | stopJoins =>
      exact hI.congr id rfl rfl rfl fun q => Nat.le_refl _
  | stopStores => exact hI.congr nofun rfl rfl rfl fun q => Nat.le_refl _
  | stopNotifies =>
      exact hI.congr id rfl rfl rfl fun q => Nat.le_of_eq (countP_runs_notified q p.workers)
  | stopClears hpc hfree =>
      refine ⟨?_, hI.isPrefix, hI.running⟩
      intro hrun
      have hset := hF.set (Or.inr (Or.inr (Or.inl hpc)))
      rw [hrun] at hset
      exact nomatch hset

theorem orderInv_of_reaches {ok : ThreadPool Task → Act Task → Prop} {p : ThreadPool Task}
    (h : Reaches poolSystem ok p) : OrderInv p := by
  refine h.invariant_of (J := FlagInv) (fun _ hr => flagInv_of_reaches hr) ?_ ?_
  · rintro p ⟨n, m, rfl⟩
    refine ⟨fun _ => rfl, List.prefix_refl _, ?_⟩
    intro q
    exact Nat.le_of_eq (countP_replicate_eq_zero rfl n)
  · intro p a p' hF hI _ hs
    exact hI.step hF (step_cases hs)

/-- A running task has been popped. -/
theorem OrderInv.mem_popped {p : ThreadPool Task} (h : OrderInv p) {i : Nat} {task : Task}
    (hrun : p.workers[i]? = some (.run task)) : task ∈ p.popped := by
  classical
  have hpos := countP_pos_of_getElem? (p := runs (fun t => decide (t = task))) hrun
    (decide_eq_true rfl)
  obtain ⟨t, ht, heq⟩ := List.countP_pos_iff.mp
    (Nat.lt_of_lt_of_le hpos (h.running (fun t => decide (t = task))))
  exact of_decide_eq_true heq ▸ ht

/-- With the flag set no step takes a task, and none unsets the flag. -/
theorem popped_step {p p' : ThreadPool Task} {a : Act Task} (hset : p.isStopThreadpool = true)
    (hs : Step p a p') : p'.isStopThreadpool = true ∧ p'.popped = p.popped := by
  cases hs with
  | workerTakes hpc hin hfree hqueue hrun =>
      rw [hset] at hrun
      exact nomatch hrun
  | stopStores => exact ⟨rfl, rfl⟩
  | workerWaits | workerLeaves | workerSleeps | workerEnds | workerWakesNone | workerWakes
  | workerSpurious | producerCalls | producerDeclined | producerAdmitted | producerWaits
  | producerPuts | producerSleeps | producerWakesNone | producerWakes | producerSpurious
  | stopCalled | stopNotifies | stopJoins | stopClears => exact ⟨hset, rfl⟩

/-- From a state with the flag set on, the popped tasks are what they were. -/
theorem popped_of_leads {p p' : ThreadPool Task} (hset : p.isStopThreadpool = true)
    (hl : Leads poolSystem p p') : p'.popped = p.popped := by
  have hfrozen : p'.isStopThreadpool = true ∧ p'.popped = p.popped := by
    refine hl.invariant (I := fun q => q.isStopThreadpool = true ∧ q.popped = p.popped) ?_
      ⟨hset, rfl⟩
    intro q a q' hq hs
    obtain ⟨hset', heq⟩ := popped_step hq.1 (step_cases hs)
    exact ⟨hset', heq.trans hq.2⟩
  exact hfrozen.2

/-- **TASK ORDER**: before the stop flag is set the popped tasks followed by the queue are the
    enqueued tasks; at all times the popped tasks are a prefix of the enqueued ones, and no task
    runs more often than it was popped; and once the flag is set no further task is popped, and
    none runs that was not popped before. -/
theorem tasks_in_order {p : ThreadPool Task} (h : Reachable poolSystem p) :
    (p.isStopThreadpool = false → p.popped ++ p.taskQueue = p.enqueued)
    ∧ p.popped <+: p.enqueued
    ∧ (∀ q : Task → Bool, p.workers.countP (runs q) ≤ p.popped.countP q)
    ∧ (p.isStopThreadpool = true → ∀ p' : ThreadPool Task, Leads poolSystem p p' →
        p'.popped = p.popped
        ∧ ∀ (i : Nat) (task : Task), p'.workers[i]? = some (.run task) → task ∈ p.popped) := by
  have hI := orderInv_of_reaches h
  refine ⟨hI.inOrder, hI.isPrefix, hI.running, ?_⟩
  intro hset p' hl
  have heq := popped_of_leads hset hl
  refine ⟨heq, ?_⟩
  intro i task hrun
  rw [← heq]
  exact (orderInv_of_reaches (h.leads hl)).mem_popped hrun

/-- One task has been popped and runs, a second one is queued. -/
def oneRunning : ThreadPool Nat where
  isStopThreadpool := false
  taskQueue := [8]
  taskQueueMutex := none
  workers := [.run 7]
  producers := [.notify, .idle]
  stopper := .idle
  enqueued := [7, 8]
  popped := [7]

/-- Two producers, one worker: the first task runs, the second is queued. -/
theorem tasks_in_order_one_running :
    oneRunning.popped ++ oneRunning.taskQueue = oneRunning.enqueued := by
  have hstart : Reachable poolSystem (ThreadPool.initial 1 2 : ThreadPool Nat) :=
    Reachable.start ⟨1, 2, rfl⟩
  have hexec : exec poolSystem (ThreadPool.initial 1 2)
      [.addTask 1 7, .producer 1 none, .producer 1 none, .producer 1 none, .addTask 0 8,
        .producer 0 none, .producer 0 none, .worker 0 none] = some oneRunning := rfl
  exact (tasks_in_order (hstart.exec hexec)).1 rfl

end EasyRpcTaskOrder
