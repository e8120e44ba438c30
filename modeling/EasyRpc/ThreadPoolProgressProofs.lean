import EasyRpc.ThreadPoolStopProofs

/-! # Progress of a running pool — tasks are taken and calls return

    While the stop flag is unset no worker leaves `run_task`, so a worker always finds its way
    back to the top of the loop and takes the front of the queue; and a call of `add_task` always
    finds its way out, because a worker makes room for it (`add_task_returns`). -/

namespace EasyRpcThreadPoolProgress

open Transition ThreadTable EasyRpcThreadPool EasyRpcThreadPoolStop

variable {Task : Type}

/-- The calls that bring a task in. -/
@[simp] def isAddTask : Act Task → Bool
  | .addTask _ _ => true
  | _ => false

/-- The pool left to itself: no further calls of `add_task`. -/
def innerSystem : System (ThreadPool Task) (Act Task) where
  start p := ∃ n m, p = ThreadPool.initial n m
  step p a := if isAddTask a then none else p.step a

/-- A step that brings no task in may be put before a way that brings none in. -/
theorem Leads.inner {p q r : ThreadPool Task} {a : Act Task} (ha : isAddTask a = false)
    (hs : poolSystem.step p a = some q) (h : Leads innerSystem q r) : Leads innerSystem p r := by
  refine h.cons (a := a) ?_
  show (if isAddTask a then none else p.step a) = some q
  rw [ha]
  exact hs

/-! ## What holds of a pool -/

/-- Workers leave `run_task` for the stop flag only. -/
def NoneLeft (p : ThreadPool Task) : Prop :=
  p.isStopThreadpool = false → ∀ pc ∈ p.workers, pc.isDone = false

/-- No worker leaves its loop before the stop, across every step. -/
theorem NoneLeft.step {p p' : ThreadPool Task} {a : Act Task} (h : NoneLeft p)
    (hs : Step p a p') : NoneLeft p' := by
  intro hrun' pc hpc
  have hset : ∀ {i : Nat} {pc' : WorkerPc Task}, pc'.isDone = false →
      p.isStopThreadpool = false → pc ∈ p.workers.set i pc' → pc.isDone = false := by
    intro i pc' hdone hrun hmem
    rcases List.mem_or_eq_of_mem_set hmem with hold | rfl
    · exact h hrun pc hold
    · exact hdone
  cases hs with
  | workerLeaves hpc' hin hfree hstop =>
      rw [show p.isStopThreadpool = false from hrun'] at hstop
      exact nomatch hstop
  | stopStores => exact nomatch hrun'
  | stopNotifies =>
      obtain ⟨pc0, hmem, rfl⟩ := List.mem_map.mp hpc
      have hold := h hrun' pc0 hmem
      cases pc0 with
      | asleep => rfl
      | lock | wait | woken | run | notify | done => exact hold
  | workerWaits | workerTakes | workerSleeps | workerEnds | workerWakesNone | workerWakes
  | workerSpurious | producerWakes => exact hset rfl hrun' hpc
  | producerCalls | producerDeclined | producerAdmitted | producerWaits | producerPuts
  | producerSleeps | producerWakesNone | producerSpurious | stopCalled | stopJoins
  | stopClears => exact h hrun' pc hpc

/-- While the pool runs, all workers are in their loops. -/
theorem noneLeft_of_reaches {ok : ThreadPool Task → Act Task → Prop} {p : ThreadPool Task}
    (h : Reaches poolSystem ok p) : NoneLeft p := by
  refine h.invariant ?_ ?_
  · rintro p ⟨n, m, rfl⟩ - pc hpc
    rw [List.eq_of_mem_replicate hpc]
    rfl
  · intro p a p' hI _ hs
    exact hI.step (step_cases hs)

/-- The facts about a pool that its progress rests on. -/
structure Sound (p : ThreadPool Task) : Prop where
  wait : WaitInv p
  mutex : MutexInv p
  noneLeft : NoneLeft p

theorem Sound.step {p p' : ThreadPool Task} {a : Act Task} (h : Sound p)
    (hs : poolSystem.step p a = some p') : Sound p' := by
  have hstep := step_cases hs
  exact ⟨h.wait.step hstep, h.mutex.step hstep, h.noneLeft.step hstep⟩

/-! ## A worker takes what is queued -/

/-- A worker at the top of its loop, or woken, takes the front of the queue. -/
theorem take_step {p : ThreadPool Task} {i : Nat} {pc : WorkerPc Task} {task : Task}
    {rest : List Task} (hi : p.workers[i]? = some pc) (hin : pc = .lock ∨ pc = .woken)
    (hfree : p.taskQueueMutex = none) (hrun : p.isStopThreadpool = false)
    (hqueue : p.taskQueue = task :: rest) :
    poolSystem.step p (.worker i none) = some { p.setWorker i (.run task) with
      taskQueue := rest, popped := p.popped ++ [task] } := by
  have htake : p.takeTask i = some { p.setWorker i (.run task) with
      taskQueue := rest, popped := p.popped ++ [task] } := by
    rw [ThreadPool.takeTask, if_neg (not_not_intro hfree), hqueue, hrun]
    rfl
  show p.workerStep i none = _
  rw [ThreadPool.workerStep, hi]
  rcases hin with rfl | rfl <;> exact htake

/-- A worker whose task has been popped, notified or not, comes back to the top of its loop. -/
theorem comes_back {p : ThreadPool Task} {i : Nat} {pc : WorkerPc Task}
    (hi : p.workers[i]? = some pc) (hpop : pc.isPopped = true) :
    ∃ q, Leads innerSystem p q ∧ q.workers[i]? = some .lock
      ∧ q.taskQueueMutex = p.taskQueueMutex ∧ q.isStopThreadpool = p.isStopThreadpool
      ∧ q.taskQueue = p.taskQueue
      ∧ ∀ (j : Nat) (pc : ProducerPc Task), p.producers[j]? = some pc → pc.isAsleep = false →
          q.producers[j]? = some pc := by
  cases pc with
  | notify =>
      obtain ⟨w, q, hstep, hover, hqueue, -, hothers⟩ := notify_step hi
      refine ⟨q, Leads.inner rfl hstep (Leads.refl _ q), ?_, hover.mutex, hover.flag, hqueue,
        hothers⟩
      rw [hover.workers]
      exact getElem?_set_moved hi
  | run task =>
      have hend : poolSystem.step p (.worker i none) = some (p.setWorker i .notify) := by
        show p.workerStep i none = _
        rw [ThreadPool.workerStep, hi]
      have hnotify : (p.setWorker i .notify).workers[i]? = some .notify := getElem?_set_moved hi
      obtain ⟨w, q, hstep, hover, hqueue, -, hothers⟩ := notify_step hnotify
      refine ⟨q, Leads.inner rfl hend (Leads.inner rfl hstep (Leads.refl _ q)), ?_, hover.mutex,
        hover.flag, hqueue, hothers⟩
      rw [hover.workers]
      exact getElem?_set_moved hnotify
  | lock | wait | asleep | woken | done => cases hpop

/-- **ROOM**: a worker, wherever it is, takes the front of the queue, and a producer that does
    not sleep stays where it is. -/
theorem makes_room {p : ThreadPool Task} (hS : Sound p) (hrun : p.isStopThreadpool = false)
    (hfree : p.taskQueueMutex = none) (hsome : p.workers ≠ []) {task : Task} {rest : List Task}
    (hqueue : p.taskQueue = task :: rest) {j : Nat} {pcj : ProducerPc Task}
    (hj : p.producers[j]? = some pcj) (hawake : pcj.isAsleep = false) :
    ∃ q, Leads innerSystem p q ∧ q.isStopThreadpool = false ∧ q.taskQueueMutex = none
      ∧ q.taskQueue = rest ∧ q.producers[j]? = some pcj := by
  obtain ⟨pc, others, hworkers⟩ := List.exists_cons_of_ne_nil hsome
  have hi : p.workers[0]? = some pc := by
    rw [hworkers]
    rfl
  have htop : pc = .lock ∨ pc = .woken →
      ∃ q, Leads innerSystem p q ∧ q.isStopThreadpool = false ∧ q.taskQueueMutex = none
        ∧ q.taskQueue = rest ∧ q.producers[j]? = some pcj := by
    intro hin
    have htake := take_step hi hin hfree hrun hqueue
    exact ⟨_, Leads.inner rfl htake (Leads.refl _ _), hrun, hfree, rfl, hj⟩
  have hback : pc.isPopped = true →
      ∃ q, Leads innerSystem p q ∧ q.isStopThreadpool = false ∧ q.taskQueueMutex = none
        ∧ q.taskQueue = rest ∧ q.producers[j]? = some pcj := by
    intro hpop
    obtain ⟨q, hlead, hlock, hmutex, hflag, hsame, hothers⟩ := comes_back hi hpop
    have htake := take_step hlock (Or.inl rfl) (hmutex.trans hfree) (hflag.trans hrun)
      (hsame.trans hqueue)
    exact ⟨_, hlead.trans (Leads.inner rfl htake (Leads.refl _ _)), hflag.trans hrun,
      hmutex.trans hfree, rfl, hothers j pcj hj hawake⟩
  cases pc with
  | lock => exact htop (Or.inl rfl)
  | woken => exact htop (Or.inr rfl)
  | run => exact hback rfl
  | notify => exact hback rfl
  | asleep =>
      have hwake := wakeWorker_asleep hi
      have htake := take_step (p := p.setWorker 0 .woken)
        (getElem?_set_moved hi) (Or.inr rfl) hfree hrun hqueue
      exact ⟨_, Leads.inner rfl hwake (Leads.inner rfl htake (Leads.refl _ _)), hrun, hfree, rfl,
        hj⟩
  | wait => exact absurd hi ((hS.wait.none_of_free hfree).1 0)
  | done =>
      have hdone := hS.noneLeft hrun .done (List.mem_of_getElem? hi)
      cases hdone

/-! ## A call returns -/

/-- Whoever holds the mutex falls asleep, and the queue is the same. -/
theorem mutex_falls_free {p : ThreadPool Task} (hS : Sound p) {j : Nat} {pc : ProducerPc Task}
    (hj : p.producers[j]? = some pc) :
    ∃ q, Leads innerSystem p q ∧ Sound q ∧ q.taskQueueMutex = none
      ∧ q.isStopThreadpool = p.isStopThreadpool ∧ q.workers.length = p.workers.length
      ∧ ∃ pc', q.producers[j]? = some pc'
          ∧ (pc' = pc ∨ ∃ task, pc = .wait task ∧ pc' = .asleep task) := by
  rcases hS.mutex.released with hfree | ⟨i, hi, hsleep⟩ | ⟨k, task, hk, hsleep⟩
  · exact ⟨p, Leads.refl _ p, hS, hfree, rfl, rfl, pc, hj, Or.inl rfl⟩
  · exact ⟨_, Leads.inner rfl hsleep (Leads.refl _ _), hS.step hsleep, rfl, rfl,
      List.length_set, pc, hj, Or.inl rfl⟩
  · refine ⟨_, Leads.inner rfl hsleep (Leads.refl _ _), hS.step hsleep, rfl, rfl, rfl, ?_⟩
    by_cases hjk : j = k
    · subst hjk
      rw [hj] at hk
      cases hk
      exact ⟨_, getElem?_set_moved hj, Or.inr ⟨task, rfl, rfl⟩⟩
    · exact ⟨pc, (List.getElem?_set_ne (Ne.symm hjk)).trans hj, Or.inl rfl⟩

/-- A producer that has enqueued notifies, whoever sleeps on `task_get_`, and returns. -/
theorem notifies_and_returns {p : ThreadPool Task} {j : Nat}
    (hj : p.producers[j]? = some .notify) :
    ∃ q, Leads innerSystem p q ∧ q.producers[j]? = some .idle := by
  have hstep : ∀ w, poolSystem.step p (.producer j w) = (p.setProducer j .idle).notifyGet w := by
    intro w
    show p.producerStep j w = _
    rw [ThreadPool.producerStep, hj]
  have hidle : (p.setProducer j .idle).producers[j]? = some .idle :=
    getElem?_set_moved hj
  by_cases hnone : p.workers.countP WorkerPc.isAsleep = 0
  · have hnotify : poolSystem.step p (.producer j none) = some (p.setProducer j .idle) := by
      rw [hstep]
      exact if_pos hnone
    exact ⟨_, Leads.inner rfl hnotify (Leads.refl _ _), hidle⟩
  · obtain ⟨i, pc, hi, hasleep⟩ := exists_getElem?_of_countP_pos (Nat.pos_of_ne_zero hnone)
    cases pc with
    | asleep =>
        have hnotify : poolSystem.step p (.producer j (some i))
            = some ((p.setProducer j .idle).setWorker i .woken) := by
          rw [hstep]
          exact notifyGet_asleep hi
        exact ⟨_, Leads.inner rfl hnotify (Leads.refl _ _), hidle⟩
    | lock | wait | woken | run | notify | done => cases hasleep

/-- With the mutex free, a producer at the critical section enqueues and returns. -/
theorem enters_and_returns {p : ThreadPool Task} (hS : Sound p)
    (hrun : p.isStopThreadpool = false) (hfree : p.taskQueueMutex = none) (hsome : p.workers ≠ [])
    {j : Nat} {pc : ProducerPc Task} {task : Task} (hj : p.producers[j]? = some pc)
    (hin : pc = .lock task ∨ pc = .woken task) :
    ∃ q, Leads innerSystem p q ∧ q.producers[j]? = some .idle := by
  -- where there is room it goes straight through
  have hroom : ∀ q : ThreadPool Task, q.isStopThreadpool = false → q.taskQueueMutex = none →
      q.producers[j]? = some pc → q.taskQueue.length ≠ maxTaskQuqueSize →
      ∃ r, Leads innerSystem q r ∧ r.producers[j]? = some .idle := by
    intro q hqrun hqfree hqj hlen
    have hput : q.putTask j task = some { q.setProducer j .notify with
        taskQueue := q.taskQueue ++ [task], enqueued := q.enqueued ++ [task] } := by
      rw [ThreadPool.putTask, if_neg (not_not_intro hqfree), beq_false_of_ne hlen,
        Bool.false_and]
      rfl
    have hstep : poolSystem.step q (.producer j none) = some { q.setProducer j .notify with
        taskQueue := q.taskQueue ++ [task], enqueued := q.enqueued ++ [task] } := by
      show q.producerStep j none = _
      rw [ThreadPool.producerStep, hqj]
      rcases hin with rfl | rfl <;> exact hput
    have hnotify : (q.setProducer j .notify).producers[j]? = some .notify :=
      getElem?_set_moved hqj
    obtain ⟨r, hlead, hidle⟩ := notifies_and_returns (p := { q.setProducer j .notify with
      taskQueue := q.taskQueue ++ [task], enqueued := q.enqueued ++ [task] }) hnotify
    exact ⟨r, Leads.inner rfl hstep hlead, hidle⟩
  by_cases hlen : p.taskQueue.length = maxTaskQuqueSize
  · -- else a worker makes room first
    cases hqueue : p.taskQueue with
    | nil =>
        rw [hqueue] at hlen
        cases hlen
    | cons front rest =>
        have hawake : pc.isAsleep = false := by
          rcases hin with rfl | rfl <;> rfl
        obtain ⟨q, hlead, hqrun, hqfree, hqrest, hqj⟩ :=
          makes_room hS hrun hfree hsome hqueue hj hawake
        obtain ⟨r, hrest, hidle⟩ := hroom q hqrun hqfree hqj (by
          rw [hqueue, List.length_cons] at hlen
          rw [hqrest]
          omega)
        exact ⟨r, hlead.trans hrest, hidle⟩
  · exact hroom p hrun hfree hj hlen

/-- **A CALL RETURNS**: while the flag is unset and the pool has a worker, every call of
    `add_task` can come to its end. -/
theorem add_task_returns {p : ThreadPool Task} (hS : Sound p) (hrun : p.isStopThreadpool = false)
    (hsome : p.workers ≠ []) {j : Nat} {pc : ProducerPc Task} (hj : p.producers[j]? = some pc) :
    ∃ q, Leads innerSystem p q ∧ q.producers[j]? = some .idle := by
  obtain ⟨q, hlead, hqS, hqfree, hqrun, hqlen, pc', hqj, hpc'⟩ := mutex_falls_free hS hj
  rw [hrun] at hqrun
  have hqsome : q.workers ≠ [] := by
    rw [Ne, ← List.length_eq_zero_iff, hqlen, List.length_eq_zero_iff]
    exact hsome
  suffices h : ∃ r, Leads innerSystem q r ∧ r.producers[j]? = some .idle by
    obtain ⟨r, hrest, hidle⟩ := h
    exact ⟨r, hlead.trans hrest, hidle⟩
  cases pc' with
  | idle => exact ⟨q, Leads.refl _ q, hqj⟩
  | notify => exact notifies_and_returns hqj
  | lock task => exact enters_and_returns hqS hqrun hqfree hqsome hqj (Or.inl rfl)
  | woken task => exact enters_and_returns hqS hqrun hqfree hqsome hqj (Or.inr rfl)
  | stopTest task =>
      have hadmit : poolSystem.step q (.producer j none) = some (q.setProducer j (.lock task)) := by
        show q.producerStep j none = _
        rw [ThreadPool.producerStep, hqj]
        exact if_neg (Bool.eq_false_iff.mp hqrun)
      obtain ⟨r, hrest, hidle⟩ := enters_and_returns (hqS.step hadmit) hqrun hqfree
        hqsome (getElem?_set_moved hqj) (Or.inl rfl)
      exact ⟨r, Leads.inner rfl hadmit hrest, hidle⟩
  | asleep task =>
      have hwake := wakeProducer_asleep hqj
      obtain ⟨r, hrest, hidle⟩ := enters_and_returns (hqS.step hwake) hqrun hqfree
        hqsome (getElem?_set_moved hqj) (Or.inr rfl)
      exact ⟨r, Leads.inner rfl hwake hrest, hidle⟩
  | wait task => exact absurd hqj ((hqS.wait.none_of_free hqfree).2 j task)

end EasyRpcThreadPoolProgress
