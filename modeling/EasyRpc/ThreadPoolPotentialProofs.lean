import EasyRpc.PotentialProofs
import EasyRpc.TaskOrderProofs
import EasyRpc.ThreadPoolProgressProofs
import EasyRpc.WorkerLimitProofs

/-! # The pool comes to rest — every schedule drains the queue

    A call of `add_task` pays for everything that is done about it: its producer takes so many
    steps to the queue, a worker so many from there, and the notifications of both wake one thread
    each.  So the steps of a run are bounded by its calls and its spurious wakeups alone
    (`steps_are_paid`), and a pool that is left to itself cannot help finishing what it was given:
    no fairness is asked of the scheduler (`pool_drains`).

    That a pool at rest has finished is `no_lost_wakeup`: a thread asleep beside work to do would
    have to be covered by a thread that is not asleep. -/

namespace EasyRpcThreadPoolPotential

open Transition ThreadTable Potential EasyRpcThreadPool EasyRpcThreadPoolStop EasyRpcTaskCustody
open EasyRpcTaskOrder EasyRpcThreadPoolProgress

variable {Task : Type}

/-! ## What is still to be done -/

/-- The steps that a worker has before it, and those of the producer that it wakes. -/
@[simp] def workerPotential : WorkerPc Task → Nat
  | .lock => 2
  | .wait => 1
  | .asleep => 0
  | .woken => 2
  | .run _ => 6
  | .notify => 5
  | .done => 0

/-- The steps that a producer has before it, and those of the worker that takes its task. -/
@[simp] def producerPotential : ProducerPc Task → Nat
  | .idle => 0
  | .stopTest _ => 10
  | .lock _ => 9
  | .wait _ => 8
  | .asleep _ => 7
  | .woken _ => 9
  | .notify => 3

/-- `notify_all` may wake all of the `n` workers. -/
def stopPotential (n : Nat) : StopPc → Nat
  | .idle => 2 * n + 5
  | .store => 2 * n + 4
  | .notifyAll => 2 * n + 3
  | .join => 2
  | .clear => 1
  | .returned => 0

/-- The steps that the pool has before it. -/
def poolPotential (p : ThreadPool Task) : Nat :=
  (p.workers.map workerPotential).sum + (p.producers.map producerPotential).sum
    + 5 * p.taskQueue.length + stopPotential p.workers.length p.stopper

/-- The wake-ups that nobody caused. -/
@[simp] def isSpurious : Act Task → Bool
  | .wakeWorker _ => true
  | .wakeProducer _ => true
  | _ => false

/-- What an action brings in. -/
def brings (a : Act Task) : Nat :=
  11 * (if isAddTask a then 1 else 0) + 3 * (if isSpurious a then 1 else 0)

section Moves

variable {p : ThreadPool Task} {k : Nat}

/-- A worker moves, and nothing else does. -/
theorem poolPotential_setWorker {i : Nat} {pc : WorkerPc Task} (hpc : p.workers[i]? = some pc)
    (pc' : WorkerPc Task) :
    poolPotential (p.setWorker i pc') + workerPotential pc
      = poolPotential p + workerPotential pc' := by
  have hmove := sum_move workerPotential hpc pc'
  have hlen : (p.workers.set i pc').length = p.workers.length := List.length_set
  simp only [poolPotential, ThreadPool.setWorker, hlen]
  omega

/-- Moving one producer changes the potential by its own share. -/
theorem poolPotential_setProducer {j : Nat} {pc : ProducerPc Task}
    (hpc : p.producers[j]? = some pc) (pc' : ProducerPc Task) :
    poolPotential (p.setProducer j pc') + producerPotential pc
      = poolPotential p + producerPotential pc' := by
  have hmove := sum_move producerPotential hpc pc'
  simp only [poolPotential, ThreadPool.setProducer]
  omega

/-- A worker that moves pays for what its step brings in. -/
theorem worker_pays {i : Nat} {pc pc' : WorkerPc Task} (hpc : p.workers[i]? = some pc)
    (h : workerPotential pc' + 1 ≤ workerPotential pc + k) :
    poolPotential (p.setWorker i pc') + 1 ≤ poolPotential p + k := by
  have hmove := poolPotential_setWorker hpc pc'
  omega

theorem producer_pays {j : Nat} {pc pc' : ProducerPc Task} (hpc : p.producers[j]? = some pc)
    (h : producerPotential pc' + 1 ≤ producerPotential pc + k) :
    poolPotential (p.setProducer j pc') + 1 ≤ poolPotential p + k := by
  have hmove := poolPotential_setProducer hpc pc'
  omega

/-- `notify_all` costs two steps a worker at most. -/
theorem workerPotential_notified (l : List (WorkerPc Task)) :
    ((l.map WorkerPc.notified).map workerPotential).sum
      ≤ (l.map workerPotential).sum + 2 * l.length := by
  induction l with
  | nil => exact Nat.le_refl 0
  | cons pc l ih =>
      have hpc : workerPotential pc.notified ≤ workerPotential pc + 2 := by
        cases pc <;> simp [WorkerPc.notified]
      simp only [List.map_cons, List.sum_cons, List.length_cons]
      omega

end Moves

/-- **EVERY STEP IS PAID FOR**, by any thread and at any place. -/
theorem pool_pays :
    Pays (poolSystem : System (ThreadPool Task) (Act Task)) poolPotential brings := by
  intro p a p' hs
  cases step_cases hs with
  | workerWaits hpc hin | workerLeaves hpc hin =>
      refine worker_pays hpc ?_
      rcases hin with rfl | rfl <;> simp [brings]
  | @workerTakes i w pc task rest hpc hin hfree hqueue hrun =>
      have hmove := poolPotential_setWorker hpc (.run task)
      have hpot : workerPotential pc = 2 := by rcases hin with rfl | rfl <;> rfl
      have hlen : p.taskQueue.length = rest.length + 1 := congrArg List.length hqueue
      simp only [poolPotential, ThreadPool.setWorker, workerPotential] at hmove hpot ⊢
      omega
  | workerSleeps hpc | workerEnds hpc | workerWakesNone hpc | workerSpurious hpc =>
      exact worker_pays hpc (by simp [brings])
  | @workerWakes i j task hpc hsleep =>
      have hworker := poolPotential_setWorker hpc .lock
      have hproducer := poolPotential_setProducer (p := p.setWorker i .lock) hsleep (.woken task)
      simp only [workerPotential, producerPotential] at hworker hproducer
      omega
  | producerCalls hpc | producerDeclined hpc | producerAdmitted hpc | producerSleeps hpc
  | producerWakesNone hpc | producerSpurious hpc =>
      exact producer_pays hpc (by simp [brings])
  | producerWaits hpc hin =>
      refine producer_pays hpc ?_
      rcases hin with rfl | rfl <;> simp [brings]
  | @producerPuts j w pc task hpc hin hfree hroom =>
      have hmove := poolPotential_setProducer hpc .notify
      have hpot : producerPotential pc = 9 := by rcases hin with rfl | rfl <;> rfl
      simp only [poolPotential, ThreadPool.setProducer, producerPotential, List.length_append,
        List.length_singleton] at hmove hpot ⊢
      omega
  | @producerWakes j i hpc hsleep =>
      have hproducer := poolPotential_setProducer hpc .idle
      have hworker := poolPotential_setWorker (p := p.setProducer j .idle) hsleep .woken
      simp only [workerPotential, producerPotential] at hworker hproducer
      omega
  | stopCalled hpc | stopStores hpc | stopJoins hpc =>
      simp only [poolPotential, hpc, stopPotential]
      omega
  | stopNotifies hpc =>
      have hwoken := workerPotential_notified p.workers
      simp only [poolPotential, hpc, stopPotential]
      omega
  | stopClears hpc hfree =>
      simp only [poolPotential, hpc, stopPotential, List.length_nil]
      omega

/-- What a run brings in: eleven for each task and three for each spurious wake-up. -/
theorem sum_brings (as : List (Act Task)) :
    (as.map brings).sum = 11 * as.countP isAddTask + 3 * as.countP isSpurious := by
  induction as with
  | nil => rfl
  | cons a as ih =>
      simp only [List.map_cons, List.sum_cons, ih, brings, List.countP_cons]
      omega

theorem poolPotential_initial (n m : Nat) :
    poolPotential (ThreadPool.initial n m : ThreadPool Task) = 4 * n + 5 := by
  have hworkers : ((List.replicate n (WorkerPc.lock : WorkerPc Task)).map workerPotential).sum
      = 2 * n := by
    rw [List.map_replicate, List.sum_replicate_nat, Nat.mul_comm]
    rfl
  have hproducers :
      ((List.replicate m (ProducerPc.idle : ProducerPc Task)).map producerPotential).sum = 0 := by
    rw [List.map_replicate, List.sum_replicate_nat]
    rfl
  simp only [poolPotential, ThreadPool.initial, hworkers, hproducers, stopPotential,
    List.length_nil, List.length_replicate]
  omega

/-- **STEPS ARE PAID FOR**: a run of the pool, however its threads are scheduled, takes no more
    steps than its `n` workers and its stop ask for, eleven a call of `add_task` and three a
    spurious wakeup. -/
theorem steps_are_paid {n m : Nat} {as : List (Act Task)} {p : ThreadPool Task}
    (h : exec poolSystem (.initial n m) as = some p) :
    as.length + poolPotential p
      ≤ 4 * n + 5 + 11 * as.countP isAddTask + 3 * as.countP isSpurious := by
  have hlen := pool_pays.length_le h
  rw [poolPotential_initial, sum_brings] at hlen
  omega

/-- A producer brings in one task, and a worker runs it and comes back for more. -/
def oneTaskDone : List (Act Nat) :=
  [.addTask 0 7, .producer 0 none, .producer 0 none, .producer 0 none, .worker 0 none,
    .worker 0 none, .worker 0 none]

theorem steps_are_paid_one_task : ∃ p : ThreadPool Nat,
    exec poolSystem (.initial 1 1) oneTaskDone = some p ∧ p.popped = [7]
    ∧ oneTaskDone.length + poolPotential p ≤ 20 := by
  have hexec : exec poolSystem (.initial 1 1) oneTaskDone = some _ := rfl
  exact ⟨_, hexec, rfl, steps_are_paid hexec⟩

/-! ## A pool at rest -/

/-- The steps that the pool's own threads take by themselves. -/
@[simp] def isOwn : Act Task → Bool
  | .worker _ _ => true
  | .producer _ _ => true
  | _ => false

/-- The pool left to its own threads. -/
def ownSystem : System (ThreadPool Task) (Act Task) := only (fun _ => isOwn) poolSystem

/-- Nothing is queued, and nobody is about anything. -/
structure Finished (p : ThreadPool Task) : Prop where
  queue : p.taskQueue = []
  workers : ∀ pc ∈ p.workers, pc = .asleep
  producers : ∀ pc ∈ p.producers, pc = .idle

/-- What holds of a pool that was never stopped. -/
structure Alive (p : ThreadPool Task) : Prop where
  sound : Sound p
  running : Running p
  get : Reachable WaitChannel.system p.getChannel
  put : Reachable WaitChannel.system p.putChannel

theorem alive_initial (n m : Nat) : Alive (ThreadPool.initial n m : ThreadPool Task) := by
  refine ⟨⟨waitInv_initial n m, .of_free rfl, ?_⟩, ⟨rfl, rfl, Nat.zero_le _⟩,
    Reachable.start (countP_replicate_eq_zero rfl n),
    Reachable.start (countP_replicate_eq_zero rfl m)⟩
  intro _ pc hpc
  rw [List.eq_of_mem_replicate hpc]
  rfl

/-- Every step but the call of `stop` leaves the pool alive. -/
theorem Alive.step {p p' : ThreadPool Task} {a : Act Task} (h : Alive p) (ha : a ≠ .stop)
    (hs : poolSystem.step p a = some p') : Alive p' := by
  have hstep := step_cases hs
  refine ⟨h.sound.step hs, h.running.step ha hstep, ?_, ?_⟩
  · rcases getChannel_step h.sound.wait h.running ha hstep with heq | ⟨e, he⟩
    · rw [heq]
      exact h.get
    · exact h.get.step he
  · rcases putChannel_step h.sound.wait h.running ha hstep with heq | ⟨e, he⟩
    · rw [heq]
      exact h.put
    · exact h.put.step he

theorem alive_of_reaches {p : ThreadPool Task}
    (h : Reaches poolSystem (fun _ a => a ≠ .stop) p) : Alive p := by
  refine h.invariant ?_ fun p a p' hI ha hs => hI.step ha hs
  rintro p ⟨n, m, rfl⟩
  exact alive_initial n m

/-- The workers all sleep, and the producers sleep or are idle. -/
structure Dormant (p : ThreadPool Task) : Prop where
  workers : ∀ pc ∈ p.workers, pc = .asleep
  producers : ∀ pc ∈ p.producers, pc.isAsleep = true ∨ pc = .idle

section Rest

variable {p : ThreadPool Task}

/-- The critical section of a worker is open while the mutex is free. -/
theorem takeTask_enters (hfree : p.taskQueueMutex = none) (i : Nat) : p.takeTask i ≠ none := by
  rw [ThreadPool.takeTask, if_neg (not_not_intro hfree)]
  split
  · exact Option.some_ne_none _
  · split
    · exact Option.some_ne_none _
    · split <;> exact Option.some_ne_none _

theorem putTask_enters (hfree : p.taskQueueMutex = none) (j : Nat) (task : Task) :
    p.putTask j task ≠ none := by
  rw [ThreadPool.putTask, if_neg (not_not_intro hfree)]
  split <;> exact Option.some_ne_none _

/-- With the mutex free a worker that can take no step sleeps, or has left. -/
theorem worker_at_rest {i : Nat} (hrests : ∀ w, p.step (.worker i w) = none)
    (hfree : p.taskQueueMutex = none) {pc : WorkerPc Task} (hi : p.workers[i]? = some pc) :
    pc = .asleep ∨ pc = .done := by
  have hstep : p.workerStep i none = none := hrests none
  cases pc with
  | asleep => exact Or.inl rfl
  | done => exact Or.inr rfl
  | lock | woken =>
      simp only [ThreadPool.workerStep, hi] at hstep
      exact absurd hstep (takeTask_enters hfree i)
  | wait | run =>
      simp only [ThreadPool.workerStep, hi] at hstep
      cases hstep
  | notify =>
      obtain ⟨w, q, hnotify, -⟩ := notify_step hi
      cases (hrests w).symm.trans hnotify

/-- A producer that has enqueued can notify. -/
theorem producer_notifies {j : Nat} (hj : p.producers[j]? = some .notify) :
    ∃ w, p.step (.producer j w) ≠ none := by
  have hstep : ∀ w, p.step (.producer j w) = (p.setProducer j .idle).notifyGet w := by
    intro w
    show p.producerStep j w = _
    rw [ThreadPool.producerStep, hj]
  by_cases hnone : p.workers.countP WorkerPc.isAsleep = 0
  · refine ⟨none, ?_⟩
    rw [hstep, ThreadPool.notifyGet, ThreadPool.setProducer_workers, if_pos hnone]
    exact Option.some_ne_none _
  · obtain ⟨i, pc, hi, hasleep⟩ := exists_getElem?_of_countP_pos (Nat.pos_of_ne_zero hnone)
    cases pc with
    | asleep =>
        refine ⟨some i, ?_⟩
        rw [hstep, notifyGet_asleep (p := p.setProducer j .idle) hi]
        exact Option.some_ne_none _
    | lock | wait | woken | run | notify | done => cases hasleep

/-- With the mutex free a producer that can take no step sleeps, or is not in `add_task`. -/
theorem producer_at_rest {j : Nat} (hrests : ∀ w, p.step (.producer j w) = none)
    (hfree : p.taskQueueMutex = none) {pc : ProducerPc Task}
    (hj : p.producers[j]? = some pc) : pc.isAsleep = true ∨ pc = .idle := by
  have hstep : p.producerStep j none = none := hrests none
  cases pc with
  | asleep => exact Or.inl rfl
  | idle => exact Or.inr rfl
  | stopTest task =>
      simp only [ThreadPool.producerStep, hj] at hstep
      split at hstep <;> cases hstep
  | lock task | woken task =>
      simp only [ThreadPool.producerStep, hj] at hstep
      exact absurd hstep (putTask_enters hfree j task)
  | wait task =>
      simp only [ThreadPool.producerStep, hj] at hstep
      cases hstep
  | notify =>
      obtain ⟨w, hnotify⟩ := producer_notifies hj
      exact absurd (hrests w) hnotify

/-- Where no waiting thread can take its step the mutex is free. -/
theorem mutex_at_rest (hM : MutexInv p)
    (hworkers : ∀ i, p.workers[i]? = some .wait → p.step (.worker i none) = none)
    (hproducers : ∀ j, p.step (.producer j none) = none) : p.taskQueueMutex = none := by
  rcases hM.released with hfree | ⟨i, hi, hsleep⟩ | ⟨j, task, -, hsleep⟩
  · exact hfree
  · exact absurd ((hworkers i hi).symm.trans hsleep) nofun
  · exact absurd ((hproducers j).symm.trans hsleep) nofun

/-- A pool whose threads can do nothing by themselves is dormant. -/
theorem dormant_of_rests (hA : Alive p) (hrests : Rests (fun _ => isOwn) poolSystem p) :
    Dormant p := by
  have hfree := mutex_at_rest hA.sound.mutex (fun i _ => hrests (.worker i none) rfl)
    fun j => hrests (.producer j none) rfl
  constructor
  · intro pc hmem
    obtain ⟨i, hi⟩ := List.mem_iff_getElem?.mp hmem
    rcases worker_at_rest (fun w => hrests (.worker i w) rfl) hfree hi with hasleep | rfl
    · exact hasleep
    · cases hA.sound.noneLeft hA.running.flag _ hmem
  · intro pc hmem
    obtain ⟨j, hj⟩ := List.mem_iff_getElem?.mp hmem
    exact producer_at_rest (fun w => hrests (.producer j w) rfl) hfree hj

/-- Of the workers of a dormant pool none could cover a sleeper. -/
theorem Dormant.workers_cover_none (h : Dormant p) :
    p.workers.countP WorkerPc.isWoken = 0 ∧ p.workers.countP WorkerPc.isPopped = 0 := by
  constructor
  all_goals
    refine List.countP_eq_zero.mpr fun pc hmem => ?_
    rw [h.workers pc hmem]
    exact Bool.false_ne_true

theorem Dormant.producers_cover_none (h : Dormant p) :
    p.producers.countP ProducerPc.isWoken = 0
    ∧ p.producers.countP ProducerPc.isEnqueued = 0 := by
  have hnone : ∀ pc ∈ p.producers, pc.isWoken = false ∧ pc.isEnqueued = false := by
    intro pc hmem
    rcases h.producers pc hmem with hasleep | rfl
    · cases pc with
      | asleep task => exact ⟨rfl, rfl⟩
      | idle | stopTest | lock | wait | woken | notify => cases hasleep
    · exact ⟨rfl, rfl⟩
  exact ⟨List.countP_eq_zero.mpr fun pc hmem => Bool.eq_false_iff.mp (hnone pc hmem).1,
    List.countP_eq_zero.mpr fun pc hmem => Bool.eq_false_iff.mp (hnone pc hmem).2⟩

/-- **AT REST**: a dormant pool that has a worker has finished: a thread asleep beside work to do
    would have to be covered by one that is not asleep. -/
theorem Dormant.finished (h : Dormant p) (hA : Alive p) (hsome : p.workers ≠ []) :
    Finished p := by
  have hworkers := h.workers_cover_none
  have hproducers := h.producers_cover_none
  have hqueue : p.taskQueue = [] := by
    obtain ⟨pc, hmem⟩ := List.exists_mem_of_ne_nil _ hsome
    have hasleep : 0 < p.workers.countP WorkerPc.isAsleep := by
      refine List.countP_pos_iff.mpr ⟨pc, hmem, ?_⟩
      rw [h.workers pc hmem]
      rfl
    have hcovered := WaitChannel.Channel.covered hA.get hasleep
    simp only [ThreadPool.getChannel, hworkers, hproducers] at hcovered
    exact List.length_eq_zero_iff.mp (Nat.eq_zero_of_le_zero hcovered)
  refine ⟨hqueue, h.workers, fun pc hmem => ?_⟩
  rcases h.producers pc hmem with hasleep | hpc
  · -- a producer that sleeps beside an empty queue is covered by nobody
    have hpos : 0 < p.producers.countP ProducerPc.isAsleep :=
      List.countP_pos_iff.mpr ⟨pc, hmem, hasleep⟩
    have hcovered := WaitChannel.Channel.covered hA.put hpos
    simp only [ThreadPool.putChannel, hworkers, hproducers, hqueue] at hcovered
    cases hcovered
  · exact hpc

end Rest

/-! ## What was given to the pool -/

/-- The tasks of a kind that have been enqueued, or are on their way into the queue. -/
def admitted (q : Task → Bool) (p : ThreadPool Task) : Nat :=
  p.enqueued.countP q + p.producers.countP (carries q)

section Given

variable {p p' : ThreadPool Task} {q : Task → Bool}

/-- Moving one producer changes what is admitted by what it carries. -/
theorem admitted_setProducer {j : Nat} {pc : ProducerPc Task} (hpc : p.producers[j]? = some pc)
    (pc' : ProducerPc Task) :
    admitted q (p.setProducer j pc') + weight (carries q pc)
      = admitted q p + weight (carries q pc') := by
  have hmove := countP_move (carries q) hpc pc'
  simp only [admitted, ThreadPool.setProducer, weight]
  omega

/-- **NOTHING IS LOST ON THE WAY IN**: until the stop flag is set, a task that was brought in is
    enqueued or still carried. -/
theorem admitted_step {a : Act Task} (hrun : p.isStopThreadpool = false) (hs : Step p a p') :
    admitted q p' = admitted q p + brought q a := by
  cases hs with
  | producerCalls hpc => exact admitted_setProducer hpc (.stopTest _)
  | producerDeclined hpc hstop =>
      rw [hrun] at hstop
      cases hstop
  | @producerAdmitted j w task hpc =>
      exact Nat.add_right_cancel (admitted_setProducer hpc (.lock task))
  | @producerWaits j w pc task hpc hin =>
      have hmove := admitted_setProducer (q := q) hpc (.wait task)
      rcases hin with rfl | rfl <;> exact Nat.add_right_cancel hmove
  | @producerPuts j w pc task hpc hin =>
      have hmove := admitted_setProducer (q := q) hpc .notify
      have hkept : weight (carries q pc) = weight (q task) := by rcases hin with rfl | rfl <;> rfl
      have hgone : weight (carries q (.notify : ProducerPc Task)) = 0 := rfl
      simp only [admitted, ThreadPool.setProducer, brought, List.countP_append,
        List.countP_singleton] at hmove ⊢
      simp only [weight] at hmove hkept hgone
      omega
  | @producerSleeps j w task hpc =>
      exact Nat.add_right_cancel (admitted_setProducer hpc (.asleep task))
  | producerWakesNone hpc => exact admitted_setProducer hpc .idle
  | producerWakes hpc => exact admitted_setProducer hpc .idle
  | @workerWakes i j task hpc hsleep =>
      exact Nat.add_right_cancel
        (admitted_setProducer (p := p.setWorker i .lock) hsleep (.woken task))
  | @producerSpurious j task hpc =>
      exact Nat.add_right_cancel (admitted_setProducer hpc (.woken task))
  | workerWaits | workerLeaves | workerTakes | workerSleeps | workerEnds | workerWakesNone
  | workerSpurious | stopCalled | stopStores | stopNotifies | stopJoins | stopClears => rfl

/-- Over a run at whose end the flag is unset. -/
theorem admitted_exec {as : List (Act Task)} :
    ∀ {p p' : ThreadPool Task}, exec poolSystem p as = some p' → p'.isStopThreadpool = false →
      admitted q p' = admitted q p + (as.map (brought q)).sum := by
  induction as with
  | nil =>
      intro p p' hexec _
      cases hexec
      rfl
  | cons a as ih =>
      intro p p' hexec hrun'
      obtain ⟨p1, hs, hexec⟩ := exec_uncons hexec
      -- a flag once set would still be set
      have hrun : p.isStopThreadpool = false := by
        refine Bool.eq_false_iff.mpr fun hset => ?_
        have hlast : p'.isStopThreadpool = true :=
          Leads.invariant (I := fun q => q.isStopThreadpool = true)
            (fun _ _ _ hset hs => (popped_step hset (step_cases hs)).1) ⟨as, hexec⟩
            (popped_step hset (step_cases hs)).1
        rw [hrun'] at hlast
        cases hlast
      rw [ih hexec hrun', admitted_step hrun (step_cases hs), List.map_cons, List.sum_cons,
        Nat.add_assoc]

/-- A finished pool has popped what it was given. -/
theorem Finished.popped (h : Finished p) (hO : OrderInv p) (hrun : p.isStopThreadpool = false) :
    p.popped.countP q = admitted q p := by
  have hnone : p.producers.countP (carries q) = 0 := by
    refine List.countP_eq_zero.mpr fun pc hmem => ?_
    rw [h.producers pc hmem]
    exact Bool.false_ne_true
  have heq := hO.inOrder hrun
  rw [h.queue, List.append_nil] at heq
  rw [admitted, hnone, heq]
  rfl

/-- The pool's own steps bring nothing in. -/
theorem own_brings {a : Act Task} (ha : isOwn a = true) : brings a = 0 ∧ brought q a = 0 := by
  cases a with
  | worker | producer => exact ⟨rfl, rfl⟩
  | wakeWorker | addTask | wakeProducer | stop | terminate => cases ha

/-- They leave the stopper where it is. -/
theorem own_keeps {a : Act Task} (ha : isOwn a = true) (hs : Step p a p') :
    p'.stopper = p.stopper := by
  cases hs with
  | workerSpurious | producerCalls | producerSpurious | stopCalled | stopStores | stopNotifies
  | stopJoins | stopClears => cases ha
  | workerWaits | workerLeaves | workerTakes | workerSleeps | workerEnds | workerWakesNone
  | workerWakes | producerDeclined | producerAdmitted | producerWaits | producerPuts
  | producerSleeps | producerWakesNone | producerWakes => rfl

/-- The pool's own steps bring in nothing and leave the stopper where it is. -/
theorem own_exec {as : List (Act Task)} :
    ∀ {p p' : ThreadPool Task}, exec ownSystem p as = some p' →
      p'.stopper = p.stopper ∧ (as.map (brought q)).sum = 0 := by
  induction as with
  | nil =>
      intro p p' hexec
      cases hexec
      exact ⟨rfl, rfl⟩
  | cons a as ih =>
      intro p p' hexec
      obtain ⟨p1, hs, hexec⟩ := exec_uncons hexec
      obtain ⟨ha, hs⟩ := step_only.mp hs
      obtain ⟨hstopper, hsum⟩ := ih hexec
      rw [List.map_cons, List.sum_cons, hsum, (own_brings ha).2]
      exact ⟨hstopper.trans (own_keeps ha (step_cases hs)), rfl⟩

end Given

/-- **EVERY SCHEDULE DRAINS THE QUEUE**: a pool with a worker that was never stopped, left to its
    own threads, takes no more steps than its potential, in whatever order; it can stop nowhere
    but with the queue empty, every call of `add_task` returned and every task that was ever
    given to it popped, once; and it can get there. -/
theorem pool_drains {n m : Nat} (hn : 0 < n) {as : List (Act Task)} {p : ThreadPool Task}
    (hexec : exec poolSystem (.initial n m) as = some p) (hidle : p.stopper = .idle) :
    (∀ bs p', exec ownSystem p bs = some p' →
      bs.length ≤ poolPotential p
      ∧ (Rests (fun _ => isOwn) poolSystem p' →
          Finished p' ∧ ∀ q : Task → Bool, p'.popped.countP q = (as.map (brought q)).sum))
    ∧ ∃ bs p', exec ownSystem p bs = some p' ∧ Rests (fun _ => isOwn) poolSystem p' := by
  have hfree : ∀ (_ : ThreadPool Task) (a : Act Task), isOwn a = true → brings a = 0 :=
    fun _ a ha => (own_brings (q := fun _ => true) ha).1
  refine ⟨fun bs p' hbs => ?_, pool_pays.comes_to_rest hfree p⟩
  refine ⟨pool_pays.length_le_of_own hfree hbs, fun hrests => ?_⟩
  have hall := exec_append hexec (exec_only hbs)
  have hstart : Reachable poolSystem (ThreadPool.initial n m : ThreadPool Task) :=
    Reachable.start ⟨n, m, rfl⟩
  have hreach := hstart.exec hall
  have hidle' : p'.stopper = .idle := (own_exec (q := fun _ => true) hbs).1.trans hidle
  have hA := alive_of_reaches (reaches_without_stop hreach hidle')
  have hsome : p'.workers ≠ [] := by
    have hlen : p'.workers.length = n :=
      Leads.invariant (I := fun q => q.workers.length = n)
        (fun _ _ _ hlen hs => (EasyRpcWorkerLimit.workers_length_step hs).trans hlen) ⟨_, hall⟩
        List.length_replicate
    exact List.ne_nil_of_length_pos (hlen ▸ hn)
  have hfinished := (dormant_of_rests hA hrests).finished hA hsome
  refine ⟨hfinished, fun q => ?_⟩
  have hzero : admitted q (ThreadPool.initial n m) = 0 :=
    (Nat.zero_add _).trans
      (countP_replicate_eq_zero (x := (ProducerPc.idle : ProducerPc Task)) rfl m)
  rw [hfinished.popped (orderInv_of_reaches hreach) hA.running.flag,
    admitted_exec hall hA.running.flag, hzero, List.map_append, List.sum_append, (own_exec hbs).2,
    Nat.zero_add, Nat.add_zero]

/-- A pool of one worker is given a task: it drains it, in 19 more steps at most. -/
theorem pool_drains_one_call : ∃ p p' : ThreadPool Nat, ∃ bs,
    exec poolSystem (.initial 1 1) [Act.addTask 0 7] = some p ∧ poolPotential p = 19
    ∧ exec ownSystem p bs = some p' ∧ bs.length ≤ 19
    ∧ Finished p' ∧ p'.popped.countP (fun task => task == 7) = 1 := by
  have hexec : exec poolSystem (.initial 1 1) [Act.addTask 0 7] = some _ := rfl
  obtain ⟨hevery, bs, p', hbs, hrests⟩ := pool_drains Nat.one_pos hexec rfl
  obtain ⟨hlen, hdone⟩ := hevery bs p' hbs
  obtain ⟨hfinished, hpopped⟩ := hdone hrests
  exact ⟨_, p', bs, hexec, rfl, hbs, hlen, hfinished, hpopped _⟩

end EasyRpcThreadPoolPotential
