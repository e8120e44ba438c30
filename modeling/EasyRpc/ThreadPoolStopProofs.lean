import EasyRpc.ThreadPoolProofs

/-! # Stopping the pool — who is woken, and who is left behind

    `terminate_all` sets the stop flag, notifies all workers, joins them and clears the queue.
    Neither the store nor the `notify_all` takes `task_queue_mutex_`, and nothing on this path
    notifies `task_put_`.  Two threads can be left behind:

    * a **worker** that has found the flag unset and is about to wait when `notify_all` runs
      sleeps afterwards, with nobody to wake it, and the join never returns;
    * a **producer** that sleeps on `task_put_` when the flag is set is woken only by a worker
      that still has a `notify_one` to issue.

    Nothing else can go wrong: with no worker at `wait` when `notify_all` runs, every worker can
    be joined (`stop_wakes_every_worker`); with no producer at `wait` and no more producers asleep
    than workers owing a notification when the flag is set, no producer stays asleep
    (`stop_releases_producers`).  Both conditions are exact: a stop that breaks one has a
    continuation that leaves a thread behind. -/

namespace EasyRpcThreadPoolStop

open Transition ThreadTable EasyRpcThreadPool

variable {Task : Type}

/-! ## The flag and the joins -/

/-- `terminate_all` has issued its `notify_all`. -/
def PastNotifyAll (p : ThreadPool Task) : Prop :=
  p.stopper = .join ∨ p.stopper = .clear ∨ p.stopper = .returned

/-- The flag is set exactly past the store. -/
structure FlagInv (p : ThreadPool Task) : Prop where
  unset : p.stopper = .idle ∨ p.stopper = .store → p.isStopThreadpool = false
  set : p.stopper = .notifyAll ∨ PastNotifyAll p → p.isStopThreadpool = true

/-- Every step keeps the flag in line with the place of `stop`. -/
theorem FlagInv.step {p p' : ThreadPool Task} {a : Act Task} (hI : FlagInv p)
    (hs : Step p a p') : FlagInv p' := by
  cases hs with
  | stopCalled hidle =>
      refine ⟨fun _ => hI.unset (Or.inl hidle), ?_⟩
      rintro (h | h | h | h) <;> exact nomatch h
  | stopStores hpc =>
      refine ⟨?_, fun _ => rfl⟩
      rintro (h | h) <;> exact nomatch h
  | stopNotifies hpc =>
      refine ⟨?_, fun _ => hI.set (Or.inl hpc)⟩
      rintro (h | h) <;> exact nomatch h
  | stopJoins hpc hdone =>
      refine ⟨?_, fun _ => hI.set (Or.inr (Or.inl hpc))⟩
      rintro (h | h) <;> exact nomatch h
  | stopClears hpc hfree =>
      refine ⟨?_, fun _ => hI.set (Or.inr (Or.inr (Or.inl hpc)))⟩
      rintro (h | h) <;> exact nomatch h
  | workerWaits | workerLeaves | workerTakes | workerSleeps | workerEnds | workerWakesNone
  | workerWakes | workerSpurious | producerCalls | producerDeclined | producerAdmitted
  | producerWaits | producerPuts | producerSleeps | producerWakesNone | producerWakes
  | producerSpurious => exact ⟨hI.unset, hI.set⟩

/-- The flag is set exactly once the store has been done, in every reachable state. -/
theorem flagInv_of_reaches {ok : ThreadPool Task → Act Task → Prop} {p : ThreadPool Task}
    (h : Reaches poolSystem ok p) : FlagInv p := by
  refine h.invariant ?_ ?_
  · rintro p ⟨n, m, rfl⟩
    refine ⟨fun _ => rfl, ?_⟩
    rintro (h | h | h | h) <;> exact nomatch h
  · intro p a p' hI _ hs
    exact hI.step (step_cases hs)

/-- Past the joins every worker has left `run_task`. -/
def Joined (p : ThreadPool Task) : Prop :=
  p.stopper = .clear ∨ p.stopper = .returned → ∀ pc ∈ p.workers, pc.isDone = true

/-- A worker that is not done keeps `terminate_all` at its joins. -/
theorem Joined.not_yet {p : ThreadPool Task} (hI : Joined p) {i : Nat} {pc : WorkerPc Task}
    (hpc : p.workers[i]? = some pc) (hnd : pc.isDone = false) :
    ¬ (p.stopper = .clear ∨ p.stopper = .returned) := by
  intro h
  have hd := hI h pc (List.mem_of_getElem? hpc)
  rw [hnd] at hd
  exact nomatch hd

theorem Joined.step {p p' : ThreadPool Task} {a : Act Task} (hI : Joined p)
    (hs : Step p a p') : Joined p' := by
  cases hs with
  | workerWaits hpc hin | workerLeaves hpc hin | workerTakes hpc hin =>
      intro h
      rcases hin with rfl | rfl <;> exact absurd h (hI.not_yet hpc rfl)
  | workerSleeps hpc | workerEnds hpc | workerWakesNone hpc | workerWakes hpc
  | workerSpurious hpc =>
      intro h
      exact absurd h (hI.not_yet hpc rfl)
  | producerWakes hpc hsleep =>
      intro h
      exact absurd h (hI.not_yet hsleep rfl)
  | stopCalled | stopStores | stopNotifies =>
      rintro (h | h) <;> exact nomatch h
  | stopJoins hpc hdone =>
      intro _
      exact List.all_eq_true.mp hdone
  | stopClears hpc hfree =>
      intro _
      exact hI (Or.inl hpc)
  | producerCalls | producerDeclined | producerAdmitted | producerWaits | producerPuts
  | producerSleeps | producerWakesNone | producerSpurious => exact hI

/-- Past the joins all workers are done, in every reachable state. -/
theorem joined_of_reaches {ok : ThreadPool Task → Act Task → Prop} {p : ThreadPool Task}
    (h : Reaches poolSystem ok p) : Joined p := by
  refine h.invariant ?_ ?_
  · rintro p ⟨n, m, rfl⟩ (h | h) <;> exact nomatch h
  · intro p a p' hI _ hs
    exact hI.step (step_cases hs)

/-! ## Workers -/

/-- `terminate_all` is past its `notify_all`, a worker sleeps, and no producer has a
    `task_get_.notify_one()` left to issue. -/
def StrandsWorker (p : ThreadPool Task) : Prop :=
  PastNotifyAll p ∧ (∃ i : Nat, p.workers[i]? = some WorkerPc.asleep)
  ∧ p.producers.countP ProducerPc.isEnqueued = 0

/-- The condition on `notify_all`: no worker is between its verdict and its wait. -/
def NotifyAllMeetsNoWaiter (p : ThreadPool Task) (a : Act Task) : Prop :=
  a = .terminate → p.stopper = .notifyAll → NoWorkerWaits p

/-- No worker sleeps or is about to. -/
def NoWorkerBlocked (p : ThreadPool Task) : Prop :=
  ∀ (i : Nat) (pc : WorkerPc Task), p.workers[i]? = some pc → pc ≠ .wait ∧ pc ≠ .asleep

/-- A worker that moves, but not to the wait, is not blocked. -/
theorem NoWorkerBlocked.setWorker {p : ThreadPool Task} (h : NoWorkerBlocked p) (i : Nat)
    {pc : WorkerPc Task} (hpc : pc ≠ .wait ∧ pc ≠ .asleep) :
    NoWorkerBlocked (p.setWorker i pc) := by
  intro i' pc' hi'
  rcases getElem?_set_some hi' with ⟨-, heq⟩ | ⟨-, h'⟩
  · rw [← heq]
    exact hpc
  · exact h i' pc' h'

/-- `notify_all` with no worker at `wait` blocks nobody. -/
theorem NoWorkerBlocked.of_notifyAll {p : ThreadPool Task} (h : NoWorkerWaits p) :
    NoWorkerBlocked { p with workers := p.workers.map WorkerPc.notified, stopper := .join } := by
  intro i pc hi
  constructor
  · rintro rfl
    exact h i (notified_getElem? hi (fun hf => nomatch hf)).1
  · rintro rfl
    exact (notified_getElem? hi (fun hf => nomatch hf)).2 rfl

/-- With the flag set no worker goes to sleep any more. -/
theorem noWorkerBlocked_step {p p' : ThreadPool Task} {a : Act Task} (hF : FlagInv p)
    (hI : PastNotifyAll p → NoWorkerBlocked p) (ha : NotifyAllMeetsNoWaiter p a)
    (hs : Step p a p') : PastNotifyAll p' → NoWorkerBlocked p' := by
  intro hpast
  have hflag : PastNotifyAll p → p.isStopThreadpool = true := fun h => hF.set (Or.inr h)
  cases hs with
  | workerWaits hpc hin hfree hempty hrun =>
      rw [hflag hpast] at hrun
      exact nomatch hrun
  | workerTakes hpc hin hfree hqueue hrun =>
      rw [hflag hpast] at hrun
      exact nomatch hrun
  | workerSleeps hpc => exact absurd rfl (hI hpast _ _ hpc).1
  | workerLeaves | workerEnds | workerWakesNone | workerWakes | workerSpurious =>
      exact (hI hpast).setWorker _ ⟨nofun, nofun⟩
  | @producerWakes j i hpc hsleep => exact absurd rfl (hI hpast _ _ hsleep).2
  | stopCalled | stopStores => rcases hpast with h | h | h <;> exact nomatch h
  | stopNotifies hpc => exact NoWorkerBlocked.of_notifyAll (ha rfl hpc)
  | stopJoins hpc hdone => exact hI (Or.inl hpc)
  | stopClears hpc hfree => exact hI (Or.inr (Or.inl hpc))
  | producerCalls | producerDeclined | producerAdmitted | producerWaits | producerPuts
  | producerSleeps | producerWakesNone | producerSpurious => exact hI hpast

/-- **THE FORWARD HALF FOR THE WORKERS**: past a `notify_all` that met nobody on the way to his
    wait, no worker is blocked. -/
theorem noWorkerBlocked_of_reaches {p : ThreadPool Task}
    (h : Reaches poolSystem NotifyAllMeetsNoWaiter p) :
    PastNotifyAll p → NoWorkerBlocked p := by
  refine h.invariant_of (J := FlagInv) (I := fun p => PastNotifyAll p → NoWorkerBlocked p)
    (fun _ hr => flagInv_of_reaches hr) ?_ ?_
  · rintro p ⟨n, m, rfl⟩ (h | h | h) <;> exact nomatch h
  · intro p a p' hF hI ha hs
    exact noWorkerBlocked_step hF hI ha (step_cases hs)

/-! ### The joins can complete -/

/-- The mutex is held only by a thread at `wait`. -/
structure MutexInv (p : ThreadPool Task) : Prop where
  worker : ∀ i : Nat, p.taskQueueMutex = some (.worker i) → p.workers[i]? = some WorkerPc.wait
  producer : ∀ j : Nat, p.taskQueueMutex = some (.producer j) →
    ∃ task, p.producers[j]? = some (ProducerPc.wait task)

theorem MutexInv.of_free {p : ThreadPool Task} (hfree : p.taskQueueMutex = none) :
    MutexInv p := by
  constructor
  · intro i h
    rw [hfree] at h
    exact nomatch h
  · intro j h
    rw [hfree] at h
    exact nomatch h

/-- A thread at another place than the one that moved is not touched. -/
theorem getElem?_set_other {Pl : Type} {l : List Pl} {i k : Nat} {x y z : Pl}
    (hi : l[i]? = some x) (hk : l[k]? = some y) (hxy : x ≠ y) :
    (l.set i z)[k]? = some y := by
  have hne : i ≠ k := by
    rintro rfl
    rw [hi] at hk
    exact hxy (Option.some.inj hk)
  rw [List.getElem?_set_ne hne]
  exact hk

/-- A worker that is not at `wait` does not hold the mutex, so it may move. -/
theorem MutexInv.setWorker {p : ThreadPool Task} (hI : MutexInv p) {i : Nat}
    {pc : WorkerPc Task} (hpc : p.workers[i]? = some pc) (hne : pc ≠ .wait)
    (pc' : WorkerPc Task) : MutexInv (p.setWorker i pc') :=
  ⟨fun k hk => getElem?_set_other hpc (hI.worker k hk) hne, hI.producer⟩

/-- A producer that does not hold the mutex moves without touching it. -/
theorem MutexInv.setProducer {p : ThreadPool Task} (hI : MutexInv p) {j : Nat}
    {pc : ProducerPc Task} (hpc : p.producers[j]? = some pc) (hne : ∀ task, pc ≠ .wait task)
    (pc' : ProducerPc Task) : MutexInv (p.setProducer j pc') := by
  refine ⟨hI.worker, fun k hk => ?_⟩
  obtain ⟨task, htask⟩ := hI.producer k hk
  exact ⟨task, getElem?_set_other hpc htask (hne task)⟩

/-- Every step keeps the mutex with a thread at its wait. -/
theorem MutexInv.step {p p' : ThreadPool Task} {a : Act Task} (hI : MutexInv p)
    (hs : Step p a p') : MutexInv p' := by
  cases hs with
  | @workerWaits i w pc hpc hin hfree hempty hrun =>
      refine ⟨fun k hk => ?_, nofun⟩
      cases hk
      exact getElem?_set_moved hpc
  | workerLeaves hpc hin =>
      rcases hin with rfl | rfl <;> exact hI.setWorker hpc (fun h => nomatch h) _
  | workerTakes hpc hin hfree => exact MutexInv.of_free hfree
  | workerSleeps => exact MutexInv.of_free rfl
  | workerEnds hpc | workerWakesNone hpc | workerSpurious hpc =>
      exact hI.setWorker hpc (fun h => nomatch h) _
  | @workerWakes i j task hpc hsleep =>
      have hw : MutexInv (p.setWorker i .lock) := hI.setWorker hpc (fun h => nomatch h) _
      exact hw.setProducer hsleep (fun _ h => nomatch h) _
  | producerCalls hpc | producerDeclined hpc | producerAdmitted hpc | producerWakesNone hpc
  | producerSpurious hpc => exact hI.setProducer hpc (fun _ h => nomatch h) _
  | @producerWaits j w pc task hpc hin hfree hfull hrun =>
      refine ⟨nofun, fun k hk => ?_⟩
      cases hk
      exact ⟨task, getElem?_set_moved hpc⟩
  | producerPuts hpc hin hfree => exact MutexInv.of_free hfree
  | producerSleeps => exact MutexInv.of_free rfl
  | @producerWakes j i hpc hsleep =>
      have hp : MutexInv (p.setProducer j .idle) := hI.setProducer hpc (fun _ h => nomatch h) _
      exact hp.setWorker hsleep (fun h => nomatch h) _
  | stopCalled | stopStores | stopJoins => exact ⟨hI.worker, hI.producer⟩
  | stopNotifies =>
      refine ⟨fun i h => ?_, hI.producer⟩
      show (p.workers.map WorkerPc.notified)[i]? = some WorkerPc.wait
      rw [List.getElem?_map, hI.worker i h]
      rfl
  | stopClears hpc hfree => exact MutexInv.of_free hfree

/-- The mutex is held between two steps only by a thread at its wait. -/
theorem mutexInv_of_reaches {ok : ThreadPool Task → Act Task → Prop} {p : ThreadPool Task}
    (h : Reaches poolSystem ok p) : MutexInv p := by
  refine h.invariant ?_ ?_
  · rintro p ⟨n, m, rfl⟩
    exact MutexInv.of_free rfl
  · intro p a p' hI _ hs
    exact hI.step (step_cases hs)

/-- A worker at `wait` falls asleep and lets go of the mutex. -/
theorem worker_falls_asleep {p : ThreadPool Task} {i : Nat}
    (hi : p.workers[i]? = some .wait) :
    poolSystem.step p (.worker i none)
      = some { p.setWorker i .asleep with taskQueueMutex := none } := by
  show p.workerStep i none = _
  rw [ThreadPool.workerStep, hi]

/-- A producer at `wait` falls asleep and lets go of the mutex. -/
theorem producer_falls_asleep {p : ThreadPool Task} {j : Nat} {task : Task}
    (hj : p.producers[j]? = some (.wait task)) :
    poolSystem.step p (.producer j none)
      = some { p.setProducer j (.asleep task) with taskQueueMutex := none } := by
  show p.producerStep j none = _
  rw [ThreadPool.producerStep, hj]

/-- The mutex is free, or whoever holds it falls asleep at its next step. -/
theorem MutexInv.released {p : ThreadPool Task} (hM : MutexInv p) :
    p.taskQueueMutex = none
    ∨ (∃ i, p.workers[i]? = some .wait ∧ poolSystem.step p (.worker i none)
        = some { p.setWorker i .asleep with taskQueueMutex := none })
    ∨ ∃ j task, p.producers[j]? = some (.wait task) ∧ poolSystem.step p (.producer j none)
        = some { p.setProducer j (.asleep task) with taskQueueMutex := none } := by
  cases hm : p.taskQueueMutex with
  | none => exact Or.inl rfl
  | some id =>
      cases id with
      | worker i =>
          have hi := hM.worker i hm
          exact Or.inr (Or.inl ⟨i, hi, worker_falls_asleep hi⟩)
      | producer j =>
          obtain ⟨task, hj⟩ := hM.producer j hm
          exact Or.inr (Or.inr ⟨j, task, hj, producer_falls_asleep hj⟩)

/-- What the remaining steps of the workers need, and keep: the flag set, the mutex free, and
    nobody blocked. -/
structure Draining (p : ThreadPool Task) : Prop where
  flag : p.isStopThreadpool = true
  free : p.taskQueueMutex = none
  awake : NoWorkerBlocked p

/-- A worker back at the top of its loop leaves it. -/
theorem leaves_loop {p : ThreadPool Task} (hD : Draining p) {i : Nat} {pc : WorkerPc Task}
    (hpc : p.workers[i]? = some pc) (hin : pc = .lock ∨ pc = .woken) :
    poolSystem.step p (.worker i none) = some (p.setWorker i .done) := by
  have htake : p.takeTask i = some (p.setWorker i .done) := by
    rw [ThreadPool.takeTask, if_neg (not_not_intro hD.free), hD.flag, Bool.not_true,
      Bool.and_false]
    rfl
  show p.workerStep i none = some (p.setWorker i .done)
  rw [ThreadPool.workerStep, hpc]
  rcases hin with rfl | rfl <;> exact htake

/-- What the end of a task changes: its worker is back at the top of the loop, and at most one
    producer has been woken. -/
structure TaskOver (p : ThreadPool Task) (i : Nat) (q : ThreadPool Task) : Prop where
  workers : q.workers = p.workers.set i .lock
  flag : q.isStopThreadpool = p.isStopThreadpool
  mutex : q.taskQueueMutex = p.taskQueueMutex
  stopper : q.stopper = p.stopper
  waits : ∀ (j : Nat) (task : Task), p.producers[j]? = some (.wait task) →
    q.producers[j]? = some (.wait task)
  asleep : p.producers.countP ProducerPc.isAsleep ≤ q.producers.countP ProducerPc.isAsleep + 1

/-- A worker that owes a notification can issue it, whoever sleeps on `task_put_`, and the
    producers that do not sleep stay where they are. -/
theorem notify_step {p : ThreadPool Task} {i : Nat} (hpc : p.workers[i]? = some .notify) :
    ∃ w q, poolSystem.step p (.worker i w) = some q ∧ TaskOver p i q
      ∧ q.taskQueue = p.taskQueue ∧ q.popped = p.popped
      ∧ ∀ (j : Nat) (pc : ProducerPc Task), p.producers[j]? = some pc → pc.isAsleep = false →
          q.producers[j]? = some pc := by
  have hstep : ∀ w, poolSystem.step p (.worker i w) = (p.setWorker i .lock).notifyPut w := by
    intro w
    show p.workerStep i w = (p.setWorker i .lock).notifyPut w
    rw [ThreadPool.workerStep, hpc]
  by_cases hnone : p.producers.countP ProducerPc.isAsleep = 0
  · refine ⟨none, p.setWorker i .lock, ?_, ⟨rfl, rfl, rfl, rfl, fun _ _ h => h, Nat.le_succ _⟩,
      rfl, rfl, fun _ _ h _ => h⟩
    rw [hstep]
    exact if_pos hnone
  · obtain ⟨j, pc, hj, hasleep⟩ := exists_getElem?_of_countP_pos (Nat.pos_of_ne_zero hnone)
    cases pc with
    | asleep task =>
        obtain ⟨hcount, -, -⟩ :=
          producer_counts (p := p.setWorker i .lock) hj (.woken task)
        have hothers : ∀ (k : Nat) (pc : ProducerPc Task), p.producers[k]? = some pc →
            pc.isAsleep = false →
            ((p.setWorker i .lock).setProducer j (.woken task)).producers[k]? = some pc := by
          intro k pc hk hawake
          refine getElem?_set_other hj hk ?_
          rintro rfl
          cases hawake
        refine ⟨some j, (p.setWorker i .lock).setProducer j (.woken task), ?_,
          ⟨rfl, rfl, rfl, rfl, fun k other hk => hothers k _ hk rfl, Nat.le_of_eq hcount.symm⟩,
          rfl, rfl, hothers⟩
        rw [hstep]
        exact notifyPut_asleep hj
    | idle | stopTest | lock | wait | woken | notify => cases hasleep

/-- One notification less is owed. -/
theorem TaskOver.popped {p q : ThreadPool Task} {i : Nat} {pc : WorkerPc Task}
    (hq : TaskOver p i q) (hpc : p.workers[i]? = some pc) (hpop : pc.isPopped = true) :
    q.workers.countP WorkerPc.isPopped + 1 = p.workers.countP WorkerPc.isPopped := by
  have hcount := countP_move WorkerPc.isPopped hpc .lock
  rw [← hq.workers, if_pos hpop] at hcount
  exact hcount

/-- A popped task ends, and its worker issues the notification that it owes. -/
theorem finishes_task {p : ThreadPool Task} {i : Nat} {pc : WorkerPc Task}
    (hpc : p.workers[i]? = some pc) (hpop : pc.isPopped = true) :
    ∃ q, Leads poolSystem p q ∧ TaskOver p i q := by
  cases pc with
  | notify =>
      obtain ⟨w, q, hstep, hover, -⟩ := notify_step hpc
      exact ⟨q, Leads.one hstep, hover⟩
  | run task =>
      have hend : poolSystem.step p (.worker i none) = some (p.setWorker i .notify) := by
        show p.workerStep i none = some (p.setWorker i .notify)
        rw [ThreadPool.workerStep, hpc]
      obtain ⟨w, q, hstep, hq, -⟩ := notify_step (p := p.setWorker i .notify)
        (getElem?_set_moved hpc)
      exact ⟨q, Leads.cons hend (Leads.one hstep), hq.workers.trans (List.set_set ..), hq.flag,
        hq.mutex, hq.stopper, hq.waits, hq.asleep⟩
  | lock | wait | asleep | woken | done => cases hpop

/-- The pool after one more worker has left its loop.  Only a worker that had popped a task
    changes anything else. -/
structure WorkerGone (p : ThreadPool Task) (i : Nat) (pc : WorkerPc Task)
    (q : ThreadPool Task) : Prop where
  draining : Draining q
  workers : q.workers = p.workers.set i .done
  stopper : q.stopper = p.stopper
  producers : pc.isPopped = false → q.producers = p.producers

/-- **ONE WORKER LEAVES**: with the flag set and the mutex free, an unblocked worker reaches the
    end of `run_task` by its own steps, once its task has ended. -/
theorem finish_worker {p : ThreadPool Task} (hD : Draining p) {i : Nat} {pc : WorkerPc Task}
    (hpc : p.workers[i]? = some pc) :
    ∃ q, Leads poolSystem p q ∧ WorkerGone p i pc q := by
  have hdone : Draining (p.setWorker i .done) :=
    ⟨hD.flag, hD.free, hD.awake.setWorker i ⟨nofun, nofun⟩⟩
  cases pc with
  | lock =>
      exact ⟨_, Leads.one (leaves_loop hD hpc (Or.inl rfl)), hdone, rfl, rfl, fun _ => rfl⟩
  | woken =>
      exact ⟨_, Leads.one (leaves_loop hD hpc (Or.inr rfl)), hdone, rfl, rfl, fun _ => rfl⟩
  | wait => exact absurd rfl (hD.awake i _ hpc).1
  | asleep => exact absurd rfl (hD.awake i _ hpc).2
  | run | notify =>
      -- the task ends, the notification is issued, and the next look at the flag ends the loop
      obtain ⟨q, hlead, hq⟩ := finishes_task hpc rfl
      have hDq : Draining q := by
        have hset : NoWorkerBlocked (p.setWorker i .lock) :=
          hD.awake.setWorker i ⟨nofun, nofun⟩
        refine ⟨hq.flag.trans hD.flag, hq.mutex.trans hD.free, ?_⟩
        intro k pc' hk
        rw [hq.workers] at hk
        exact hset k pc' hk
      have hlock : q.workers[i]? = some .lock := by
        rw [hq.workers]
        exact getElem?_set_moved hpc
      refine ⟨q.setWorker i .done, hlead.trans (Leads.one (leaves_loop hDq hlock (Or.inl rfl))),
        ⟨hDq.flag, hDq.free, hDq.awake.setWorker i ⟨nofun, nofun⟩⟩, ?_, hq.stopper, nofun⟩
      show q.workers.set i .done = p.workers.set i .done
      rw [hq.workers, List.set_set]
  | done =>
      refine ⟨p, Leads.refl _ p, hD, ?_, rfl, fun _ => rfl⟩
      rw [← (List.getElem?_eq_some_iff.mp hpc).2, List.set_getElem_self]

/-- The pool once all workers have left. -/
structure AllGone (p q : ThreadPool Task) : Prop where
  draining : Draining q
  done : q.workers.all WorkerPc.isDone = true
  stopper : q.stopper = p.stopper
  producers : p.workers.countP WorkerPc.isPopped = 0 → q.producers = p.producers

/-- All workers leave, one after the other. -/
theorem every_worker_leaves :
    ∀ (n : Nat) (p : ThreadPool Task), Draining p →
      p.workers.countP (fun pc => !pc.isDone) = n →
      ∃ q, Leads poolSystem p q ∧ AllGone p q := by
  intro n
  induction n with
  | zero =>
      intro p hD hn
      refine ⟨p, Leads.refl _ p, hD, ?_, rfl, fun _ => rfl⟩
      rw [List.all_eq_true]
      intro pc hpc
      have hz := List.countP_eq_zero.mp hn pc hpc
      cases hd : pc.isDone with
      | true => rfl
      | false => exact absurd (by rw [hd]; rfl) hz
  | succ n ih =>
      intro p hD hn
      obtain ⟨i, pc, hpc, hnd⟩ := exists_getElem?_of_countP_pos (l := p.workers)
        (p := fun pc => !pc.isDone) (by omega)
      obtain ⟨q, hpq, hq⟩ := finish_worker hD hpc
      have hmove := countP_move (fun pc : WorkerPc Task => !pc.isDone) hpc .done
      rw [← hq.workers, hn, if_pos hnd, if_neg (fun h => Bool.noConfusion h)] at hmove
      obtain ⟨r, hqr, hr⟩ := ih q hq.draining (by omega)
      refine ⟨r, hpq.trans hqr, hr.draining, hr.done, hr.stopper.trans hq.stopper, ?_⟩
      intro hpop
      have hnot := List.countP_eq_zero.mp hpop pc (List.mem_of_getElem? hpc)
      have hpop' : q.workers.countP WorkerPc.isPopped = 0 := by
        have hcount := countP_move WorkerPc.isPopped hpc .done
        rw [← hq.workers, hpop, if_neg hnot] at hcount
        exact hcount
      exact (hr.producers hpop').trans (hq.producers (Bool.eq_false_iff.mpr hnot))

/-- Past `notify_all` with nobody blocked, the mutex becomes free: only a producer may hold it,
    at its `wait`. -/
theorem mutex_gets_free {p : ThreadPool Task} (hflag : p.isStopThreadpool = true)
    (hawake : NoWorkerBlocked p) (hM : MutexInv p) :
    ∃ q, Leads poolSystem p q ∧ Draining q ∧ q.stopper = p.stopper := by
  rcases hM.released with hfree | ⟨i, hi, -⟩ | ⟨j, task, -, hsleep⟩
  · exact ⟨p, Leads.refl _ p, ⟨hflag, hfree, hawake⟩, rfl⟩
  · exact absurd rfl (hawake i _ hi).1
  · exact ⟨_, Leads.one hsleep, ⟨hflag, rfl, hawake⟩, rfl⟩

/-- The joins return once every worker has left. -/
theorem joins_return {p : ThreadPool Task} (hdone : p.workers.all WorkerPc.isDone = true)
    (hjoin : p.stopper = .join) :
    poolSystem.step p .terminate = some { p with stopper := .clear } := by
  show p.terminateStep = _
  rw [ThreadPool.terminateStep, hjoin]
  exact if_pos hdone

/-! ### A worker at `wait` when `notify_all` runs -/

/-- After `notify_all` nobody sleeps on `task_get_`. -/
theorem countP_isAsleep_notified (l : List (WorkerPc Task)) :
    (l.map WorkerPc.notified).countP WorkerPc.isAsleep = 0 := by
  rw [List.countP_map]
  refine List.countP_eq_zero.mpr ?_
  intro pc _
  cases pc <;> exact nofun

/-- Notifications issued while nobody sleeps on `task_get_` are lost. -/
theorem notifications_run_out :
    ∀ (n : Nat) (p : ThreadPool Task), p.workers.countP WorkerPc.isAsleep = 0 →
      p.producers.countP ProducerPc.isEnqueued = n →
      ∃ q, Leads poolSystem p q ∧ q.workers = p.workers ∧ q.stopper = p.stopper
        ∧ q.producers.countP ProducerPc.isEnqueued = 0 := by
  intro n
  induction n with
  | zero => exact fun p _ hn => ⟨p, Leads.refl _ p, rfl, rfl, hn⟩
  | succ n ih =>
      intro p hnone hn
      obtain ⟨j, pc, hpc, howed⟩ := exists_getElem?_of_countP_pos (l := p.producers)
        (p := ProducerPc.isEnqueued) (by omega)
      cases pc with
      | notify =>
          have hstep : poolSystem.step p (.producer j none) = some (p.setProducer j .idle) := by
            show p.producerStep j none = _
            rw [ThreadPool.producerStep, hpc]
            exact if_pos hnone
          obtain ⟨-, -, hcount⟩ := producer_counts hpc .idle
          rw [hn] at hcount
          obtain ⟨q, hlead, hw, hst, hzero⟩ :=
            ih (p.setProducer j .idle) hnone (Nat.succ.inj hcount)
          exact ⟨q, hlead.cons hstep, hw, hst, hzero⟩
      | idle | stopTest | lock | wait | asleep | woken => cases howed

/-- A worker that is at `wait` when `notify_all` runs can be left asleep. -/
theorem late_waiter_stranded {p p' : ThreadPool Task} {a : Act Task}
    (ha : ¬ NotifyAllMeetsNoWaiter p a) (hs : p.step a = some p') :
    ∃ q, Leads poolSystem p' q ∧ StrandsWorker q := by
  simp only [NotifyAllMeetsNoWaiter, NoWorkerWaits, Classical.not_imp, Classical.not_forall,
    ne_eq, Classical.not_not] at ha
  obtain ⟨rfl, hpc, i, hwait⟩ := ha
  have hnotified : p' = { p with
      workers := p.workers.map WorkerPc.notified, stopper := .join } := by
    replace hs : p.terminateStep = some p' := hs
    rw [ThreadPool.terminateStep, hpc] at hs
    exact (Option.some.inj hs).symm
  have hwait' : p'.workers[i]? = some .wait := by
    rw [hnotified]
    show (p.workers.map WorkerPc.notified)[i]? = some .wait
    rw [List.getElem?_map, hwait]
    rfl
  have hnone : p'.workers.countP WorkerPc.isAsleep = 0 := by
    rw [hnotified]
    exact countP_isAsleep_notified p.workers
  obtain ⟨q, hlead, hw, hst, hzero⟩ := notifications_run_out _ p' hnone rfl
  have hwaitq : q.workers[i]? = some .wait := by
    rw [hw]
    exact hwait'
  have hjoin : q.stopper = .join := by
    rw [hst, hnotified]
  exact ⟨_, hlead.trans (Leads.one (worker_falls_asleep hwaitq)), Or.inl hjoin,
    ⟨i, getElem?_set_moved hwaitq⟩, hzero⟩

/-- **STOP WAKES EVERY WORKER**: in a run whose `notify_all` finds no worker between its verdict
    and its wait, no worker is left asleep, and while `terminate_all` joins, the workers can all
    leave and the joins return.  After a `notify_all` that finds one there, the run can go on so
    that this worker is left asleep. -/
theorem stop_wakes_every_worker (Task : Type) :
    (∀ p : ThreadPool Task, Reaches poolSystem NotifyAllMeetsNoWaiter p →
      ¬ StrandsWorker p
      ∧ (p.stopper = .join → ∃ q, Leads poolSystem p q ∧ q.stopper = .clear))
    ∧ ∀ (p p' : ThreadPool Task) (a : Act Task), ¬ NotifyAllMeetsNoWaiter p a →
        p.step a = some p' → ∃ q, Leads poolSystem p' q ∧ StrandsWorker q := by
  refine ⟨fun p h => ⟨?_, ?_⟩, fun p p' a ha hs => late_waiter_stranded ha hs⟩
  · rintro ⟨hpast, ⟨i, hi⟩, -⟩
    exact (noWorkerBlocked_of_reaches h hpast i _ hi).2 rfl
  · intro hjoin
    have hpast : PastNotifyAll p := Or.inl hjoin
    obtain ⟨q, hpq, hDq, hst⟩ := mutex_gets_free ((flagInv_of_reaches h).set (Or.inr hpast))
      (noWorkerBlocked_of_reaches h hpast) (mutexInv_of_reaches h)
    obtain ⟨r, hqr, hr⟩ := every_worker_leaves _ q hDq rfl
    have hstep := joins_return hr.done (hr.stopper.trans (hst.trans hjoin))
    exact ⟨_, hpq.trans (hqr.trans (Leads.one hstep)), rfl⟩

/-- One worker asleep when `stop` is called, woken by `notify_all`. -/
def joiningPool : ThreadPool Nat where
  isStopThreadpool := true
  taskQueue := []
  taskQueueMutex := none
  workers := [.woken]
  producers := []
  stopper := .join
  enqueued := []
  popped := []

/-- One worker past its verdict when the flag has been set. -/
def lateWaiter : ThreadPool Nat :=
  { joiningPool with
    workers := [.wait], taskQueueMutex := some (.worker 0), stopper := .notifyAll }

/-- A worker that slept before the `notify_all` is woken and the join can return; one that is
    about to sleep is left behind. -/
theorem stop_wakes_sleeping_worker :
    (¬ StrandsWorker joiningPool
      ∧ ∃ q, Leads poolSystem joiningPool q ∧ q.stopper = .clear)
    ∧ ∃ p q, exec poolSystem (ThreadPool.initial 1 0 : ThreadPool Nat)
        [.worker 0 none, .stop, .terminate, .terminate] = some p
      ∧ Leads poolSystem p q ∧ StrandsWorker q := by
  have h0 : Reaches poolSystem NotifyAllMeetsNoWaiter (ThreadPool.initial 1 0 : ThreadPool Nat) :=
    Reaches.start ⟨1, 0, rfl⟩
  have h1 : Reaches poolSystem NotifyAllMeetsNoWaiter
      { joiningPool with workers := [.asleep], isStopThreadpool := false, stopper := .store } := by
    refine Reaches.exec ?_ h0 (show exec poolSystem _
      [.worker 0 none, .worker 0 none, .stop] = _ from rfl)
    intro a ha s hterm
    subst hterm
    simp at ha
  have h2 : Reaches poolSystem NotifyAllMeetsNoWaiter
      { joiningPool with workers := [.asleep], stopper := .notifyAll } :=
    h1.step (fun _ h => nomatch h) (show poolSystem.step _ .terminate = _ from rfl)
  have h3 : Reaches poolSystem NotifyAllMeetsNoWaiter joiningPool := by
    refine h2.step ?_ (show poolSystem.step _ .terminate = _ from rfl)
    intro _ _ i hi
    exact nomatch List.mem_singleton.mp (List.mem_of_getElem? hi)
  have hgood := (stop_wakes_every_worker Nat).1 joiningPool h3
  have hlate : ¬ NotifyAllMeetsNoWaiter lateWaiter .terminate :=
    fun h => h rfl rfl 0 rfl
  obtain ⟨q, hq⟩ := (stop_wakes_every_worker Nat).2 lateWaiter _ .terminate hlate rfl
  exact ⟨⟨hgood.1, hgood.2 rfl⟩, _, q, rfl, hq⟩

/-- One worker asleep past `notify_all`, and nobody else in the pool. -/
def strandedWorker : ThreadPool Nat where
  isStopThreadpool := true
  taskQueue := []
  taskQueueMutex := none
  workers := [.asleep]
  producers := []
  stopper := .join
  enqueued := []
  popped := []

/-- The worker finds the flag unset, `terminate_all` stores the flag and notifies, and only then
    does the worker wait. -/
theorem worker_sleeps_through_stop :
    ¬ ∀ p : ThreadPool Nat, Reachable poolSystem p → ¬ StrandsWorker p := by
  intro h
  have hreach : Reachable poolSystem (ThreadPool.initial 1 0 : ThreadPool Nat) :=
    Reachable.start ⟨1, 0, rfl⟩
  have hexec : exec poolSystem (ThreadPool.initial 1 0)
      [.worker 0 none, .stop, .terminate, .terminate, .worker 0 none]
      = some strandedWorker := rfl
  exact h strandedWorker (hreach.exec hexec) ⟨Or.inl rfl, ⟨0, rfl⟩, rfl⟩

/-! ## Producers -/

/-- `stop` has returned, a producer sleeps, and no worker has a `task_put_.notify_one()` left to
    issue. -/
def StrandsProducer (p : ThreadPool Task) : Prop :=
  p.stopper = .returned
  ∧ (∃ (j : Nat) (task : Task), p.producers[j]? = some (ProducerPc.asleep task))
  ∧ p.workers.countP WorkerPc.isPopped = 0

/-- The condition on the store of the flag: no producer is between its verdict and its wait, and
    no more producers sleep than workers still owe a notification. -/
def StoreCoversProducers (p : ThreadPool Task) (a : Act Task) : Prop :=
  a = .terminate → p.stopper = .store →
    NoProducerWaits p
    ∧ p.producers.countP ProducerPc.isAsleep ≤ p.workers.countP WorkerPc.isPopped

/-- Past the store every sleeping producer has a worker that still owes a notification. -/
def ProducersCovered (p : ThreadPool Task) : Prop :=
  p.stopper = .notifyAll ∨ PastNotifyAll p →
    NoProducerWaits p
    ∧ p.producers.countP ProducerPc.isAsleep ≤ p.workers.countP WorkerPc.isPopped

/-- `notify_all` on `task_get_` leaves the workers that have popped where they are. -/
theorem countP_isPopped_notified (l : List (WorkerPc Task)) :
    (l.map WorkerPc.notified).countP WorkerPc.isPopped = l.countP WorkerPc.isPopped := by
  rw [List.countP_map]
  refine List.countP_congr ?_
  intro pc _
  cases pc <;> rfl

/-- With the flag set no producer goes to sleep any more, and each notification wakes one. -/
theorem ProducersCovered.step {p p' : ThreadPool Task} {a : Act Task} (hF : FlagInv p)
    (hI : ProducersCovered p) (ha : StoreCoversProducers p a) (hs : Step p a p') :
    ProducersCovered p' := by
  intro hpast
  have hflag : p.stopper = .notifyAll ∨ PastNotifyAll p → p.isStopThreadpool = true := hF.set
  cases hs with
  | workerWaits hpc hin hfree hempty hrun =>
      rw [hflag hpast] at hrun
      cases hrun
  | workerTakes hpc hin hfree hqueue hrun =>
      rw [hflag hpast] at hrun
      cases hrun
  | workerLeaves hpc hin hfree hstop =>
      obtain ⟨hwait, hle⟩ := hI hpast
      obtain ⟨-, -, hc⟩ := worker_counts hpc .done
      refine ⟨hwait, ?_⟩
      rcases hin with rfl | rfl <;> simp_all
  | workerSleeps hpc =>
      obtain ⟨hwait, hle⟩ := hI hpast
      obtain ⟨-, -, hc⟩ := worker_counts hpc .asleep
      refine ⟨hwait, ?_⟩
      simp_all
  | workerEnds hpc =>
      obtain ⟨hwait, hle⟩ := hI hpast
      obtain ⟨-, -, hc⟩ := worker_counts hpc .notify
      refine ⟨hwait, ?_⟩
      simp_all
  | workerWakesNone hpc hnone =>
      obtain ⟨hwait, -⟩ := hI hpast
      refine ⟨hwait, ?_⟩
      show p.producers.countP ProducerPc.isAsleep ≤ _
      rw [hnone]
      exact Nat.zero_le _
  | @workerWakes i j task hpc hsleep =>
      -- one notification less is owed, and one producer less sleeps
      obtain ⟨hwait, hle⟩ := hI hpast
      obtain ⟨-, -, hc⟩ := worker_counts hpc .lock
      obtain ⟨hd, -, -⟩ := producer_counts (p := p.setWorker i .lock) hsleep (.woken task)
      refine ⟨hwait.setProducer (p := p.setWorker i .lock) j (fun _ h => by cases h), ?_⟩
      simp_all
      omega
  | workerSpurious hpc =>
      obtain ⟨hwait, hle⟩ := hI hpast
      obtain ⟨-, -, hc⟩ := worker_counts hpc .woken
      refine ⟨hwait, ?_⟩
      simp_all
  | @producerCalls j task hpc =>
      obtain ⟨hwait, hle⟩ := hI hpast
      obtain ⟨hc, -, -⟩ := producer_counts hpc (.stopTest task)
      refine ⟨hwait.setProducer j (fun _ h => by cases h), ?_⟩
      simp_all
  | @producerDeclined j w task hpc hstop =>
      obtain ⟨hwait, hle⟩ := hI hpast
      obtain ⟨hc, -, -⟩ := producer_counts hpc .idle
      refine ⟨hwait.setProducer j (fun _ h => by cases h), ?_⟩
      simp_all
  | producerAdmitted hpc hrun =>
      rw [hflag hpast] at hrun
      cases hrun
  | producerWaits hpc hin hfree hfull hrun =>
      rw [hflag hpast] at hrun
      cases hrun
  | @producerPuts j w pc task hpc hin hfree hroom =>
      obtain ⟨hwait, hle⟩ := hI hpast
      obtain ⟨hc, -, -⟩ := producer_counts hpc .notify
      refine ⟨hwait.setProducer j (fun _ h => by cases h), ?_⟩
      rcases hin with rfl | rfl <;> simp_all
  | producerSleeps hpc => exact absurd hpc ((hI hpast).1 _ _)
  | @producerWakesNone j hpc hnone =>
      obtain ⟨hwait, hle⟩ := hI hpast
      obtain ⟨hc, -, -⟩ := producer_counts hpc .idle
      refine ⟨hwait.setProducer j (fun _ h => by cases h), ?_⟩
      simp_all
  | @producerWakes j i hpc hsleep =>
      obtain ⟨hwait, hle⟩ := hI hpast
      obtain ⟨hc, -, -⟩ := producer_counts hpc .idle
      obtain ⟨-, -, hd⟩ := worker_counts (p := p.setProducer j .idle) hsleep .woken
      refine ⟨hwait.setProducer j (fun _ h => by cases h), ?_⟩
      simp_all
  | @producerSpurious j task hpc =>
      obtain ⟨hwait, hle⟩ := hI hpast
      obtain ⟨hc, -, -⟩ := producer_counts hpc (.woken task)
      refine ⟨hwait.setProducer j (fun _ h => by cases h), ?_⟩
      simp_all
      omega
  | stopCalled => rcases hpast with h | h | h | h <;> cases h
  | stopStores hpc => exact ha rfl hpc
  | stopNotifies hpc =>
      obtain ⟨hwait, hle⟩ := hI (Or.inl hpc)
      refine ⟨hwait, ?_⟩
      show p.producers.countP ProducerPc.isAsleep
        ≤ (p.workers.map WorkerPc.notified).countP WorkerPc.isPopped
      rw [countP_isPopped_notified]
      exact hle
  | stopJoins hpc hdone => exact hI (Or.inr (Or.inl hpc))
  | stopClears hpc hfree => exact hI (Or.inr (Or.inr (Or.inl hpc)))

/-- **THE FORWARD HALF FOR THE PRODUCERS**: after a store that met enough workers with a
    notification to come, the blocked producers stay covered. -/
theorem producersCovered_of_reaches {p : ThreadPool Task}
    (h : Reaches poolSystem StoreCoversProducers p) : ProducersCovered p := by
  refine h.invariant_of (J := FlagInv) (fun _ hr => flagInv_of_reaches hr) ?_ ?_
  · rintro p ⟨n, m, rfl⟩ (h | h | h | h) <;> exact nomatch h
  · intro p a p' hF hI ha hs
    exact hI.step hF ha (step_cases hs)

/-! ### Blocked calls can return -/

/-- What the remaining steps of the producers need once `stop` has returned. -/
structure Stopped (p : ThreadPool Task) : Prop where
  flag : p.isStopThreadpool = true
  free : p.taskQueueMutex = none
  done : ∀ pc ∈ p.workers, pc.isDone = true
  wait : NoProducerWaits p
  awake : p.producers.countP ProducerPc.isAsleep = 0

theorem countP_zero_of_done {l : List (WorkerPc Task)} {q : WorkerPc Task → Bool}
    (hdone : ∀ pc ∈ l, pc.isDone = true) (hq : q .done = false) : l.countP q = 0 := by
  refine List.countP_eq_zero.mpr ?_
  intro pc hpc
  have hd := hdone pc hpc
  cases pc with
  | done => rw [hq]; exact Bool.false_ne_true
  | lock | wait | asleep | woken | run | notify => exact nomatch hd

/-- After `stop` has returned in a covered run the pool is quiet. -/
theorem stopped_of_reaches {p : ThreadPool Task}
    (h : Reaches poolSystem StoreCoversProducers p) (hret : p.stopper = .returned) :
    Stopped p := by
  have hpast : p.stopper = .notifyAll ∨ PastNotifyAll p := Or.inr (Or.inr (Or.inr hret))
  have hdone := joined_of_reaches h (Or.inr hret)
  have hM := mutexInv_of_reaches h
  obtain ⟨hwait, hle⟩ := producersCovered_of_reaches h hpast
  rw [countP_zero_of_done hdone rfl] at hle
  refine ⟨(flagInv_of_reaches h).set hpast, ?_, hdone, hwait, Nat.le_zero.mp hle⟩
  cases hm : p.taskQueueMutex with
  | none => rfl
  | some id =>
      -- the mutex is held at `wait` only, and nobody is there
      cases id with
      | worker i => exact nomatch hdone _ (List.mem_of_getElem? (hM.worker i hm))
      | producer j =>
          obtain ⟨task, htask⟩ := hM.producer j hm
          exact absurd htask (hwait j task)

/-- The critical section of `add_task_impl` does not wait once the flag is set. -/
theorem putTask_stopped {p : ThreadPool Task} (hflag : p.isStopThreadpool = true)
    (hfree : p.taskQueueMutex = none) (j : Nat) (task : Task) :
    p.putTask j task = some { p.setProducer j .notify with
      taskQueue := p.taskQueue ++ [task], enqueued := p.enqueued ++ [task] } := by
  rw [ThreadPool.putTask, if_neg (not_not_intro hfree), hflag, Bool.not_true, Bool.and_false]
  rfl

/-- A producer that has enqueued notifies nobody and returns. -/
theorem notify_returns {p : ThreadPool Task} {j : Nat}
    (hdone : ∀ pc ∈ p.workers, pc.isDone = true) (hj : p.producers[j]? = some .notify) :
    Leads poolSystem p (p.setProducer j .idle) := by
  refine Leads.one (a := .producer j none) ?_
  show p.producerStep j none = some (p.setProducer j .idle)
  rw [ThreadPool.producerStep, hj]
  exact if_pos (countP_zero_of_done hdone rfl)

/-- **A CALL RETURNS**: once the pool is quiet every producer can leave `add_task`. -/
theorem call_returns {p : ThreadPool Task} (hS : Stopped p) {j : Nat} {pc : ProducerPc Task}
    (hpc : p.producers[j]? = some pc) :
    ∃ q, Leads poolSystem p q ∧ q.producers[j]? = some .idle := by
  -- from the critical section on: enqueue, notify, return
  have hput : ∀ task, pc = .lock task ∨ pc = .woken task →
      ∃ q, Leads poolSystem p q ∧ q.producers[j]? = some .idle := by
    intro task hin
    have hstep : poolSystem.step p (.producer j none)
        = some { p.setProducer j .notify with
            taskQueue := p.taskQueue ++ [task], enqueued := p.enqueued ++ [task] } := by
      show p.producerStep j none = _
      rw [ThreadPool.producerStep, hpc]
      rcases hin with rfl | rfl <;> exact putTask_stopped hS.flag hS.free j task
    refine ⟨_, Leads.cons hstep (notify_returns hS.done (getElem?_set_moved hpc)), ?_⟩
    show ((p.producers.set j .notify).set j .idle)[j]? = some .idle
    rw [List.set_set]
    exact getElem?_set_moved hpc
  cases pc with
  | idle => exact ⟨p, Leads.refl _ p, hpc⟩
  | stopTest task =>
      refine ⟨p.setProducer j .idle, Leads.one (a := .producer j none) ?_,
        getElem?_set_moved hpc⟩
      show p.producerStep j none = some (p.setProducer j .idle)
      rw [ThreadPool.producerStep, hpc]
      exact if_pos hS.flag
  | lock task => exact hput task (Or.inl rfl)
  | woken task => exact hput task (Or.inr rfl)
  | wait task => exact absurd hpc (hS.wait j task)
  | asleep task =>
      have hpos := countP_pos_of_getElem? hpc (p := ProducerPc.isAsleep) rfl
      rw [hS.awake] at hpos
      exact absurd hpos (Nat.lt_irrefl 0)
  | notify => exact ⟨_, notify_returns hS.done hpc, getElem?_set_moved hpc⟩

/-! ### A producer that is not covered when the flag is set -/

/-- A producer is between its verdict and its wait, or more producers sleep than workers still
    owe a notification. -/
def Uncovered (p : ThreadPool Task) : Prop :=
  (∃ (j : Nat) (task : Task), p.producers[j]? = some (.wait task))
  ∨ p.workers.countP WorkerPc.isPopped < p.producers.countP ProducerPc.isAsleep

/-- The notifications still owed do not cover an uncovered producer. -/
theorem Uncovered.taskOver {p q : ThreadPool Task} (h : Uncovered p) {i : Nat}
    {pc : WorkerPc Task} (hpc : p.workers[i]? = some pc) (hpop : pc.isPopped = true)
    (hq : TaskOver p i q) : Uncovered q := by
  rcases h with ⟨j, task, hj⟩ | hlt
  · exact Or.inl ⟨j, task, hq.waits j task hj⟩
  · right
    have hcount := hq.popped hpc hpop
    have hasleep := hq.asleep
    omega

/-- All tasks end and all notifications are issued, and some producer is still uncovered. -/
theorem Uncovered.tasks_end :
    ∀ (n : Nat) (p : ThreadPool Task), Uncovered p →
      p.workers.countP WorkerPc.isPopped = n →
      ∃ q, Leads poolSystem p q ∧ Uncovered q ∧ q.workers.countP WorkerPc.isPopped = 0
        ∧ q.isStopThreadpool = p.isStopThreadpool ∧ q.stopper = p.stopper := by
  intro n
  induction n with
  | zero => exact fun p h hn => ⟨p, Leads.refl _ p, h, hn, rfl, rfl⟩
  | succ n ih =>
      intro p h hn
      obtain ⟨i, pc, hpc, hpop⟩ := exists_getElem?_of_countP_pos (l := p.workers)
        (p := WorkerPc.isPopped) (by omega)
      obtain ⟨q, hpq, hq⟩ := finishes_task hpc hpop
      have hcount := (hq.popped hpc hpop).trans hn
      obtain ⟨r, hqr, hr, hzero, hflag, hst⟩ :=
        ih q (h.taskOver hpc hpop hq) (Nat.succ.inj hcount)
      exact ⟨r, hpq.trans hqr, hr, hzero, hflag.trans hq.flag, hst.trans hq.stopper⟩

/-- The mutex becomes free with a producer asleep: the thread that holds it falls asleep. -/
theorem Uncovered.falls_asleep {p : ThreadPool Task} (h : Uncovered p) (hW : WaitInv p)
    (hM : MutexInv p) (hpop : p.workers.countP WorkerPc.isPopped = 0) :
    ∃ q, Leads poolSystem p q ∧ q.taskQueueMutex = none
      ∧ q.workers.countP WorkerPc.isPopped = 0
      ∧ 0 < q.producers.countP ProducerPc.isAsleep
      ∧ q.isStopThreadpool = p.isStopThreadpool ∧ q.stopper = p.stopper := by
  have hasleep : NoProducerWaits p → 0 < p.producers.countP ProducerPc.isAsleep := by
    intro hno
    rcases h with ⟨j, task, hj⟩ | hlt
    · exact absurd hj (hno j task)
    · exact Nat.lt_of_le_of_lt (Nat.zero_le _) hlt
  rcases hM.released with hfree | ⟨i, hi, hsleep⟩ | ⟨j, task, hj, hsleep⟩
  · exact ⟨p, Leads.refl _ p, hfree, hpop, hasleep (hW.none_of_free hfree).2, rfl, rfl⟩
  · obtain ⟨-, -, hcount⟩ := worker_counts hi .asleep
    exact ⟨_, Leads.one hsleep, rfl, hcount.trans hpop, hasleep (hW.worker_sleeps hi).2, rfl, rfl⟩
  · have hset : (p.producers.set j (.asleep task))[j]? = some (.asleep task) :=
      getElem?_set_moved hj
    exact ⟨_, Leads.one hsleep, rfl, hpop, countP_pos_of_getElem? hset rfl, rfl, rfl⟩

/-- With no task running and the mutex free, `terminate_all` returns without waking any
    producer. -/
theorem terminate_all_returns {p : ThreadPool Task} (hW : WaitInv p)
    (hflag : p.isStopThreadpool = true) (hpc : p.stopper = .notifyAll)
    (hfree : p.taskQueueMutex = none) (hpop : p.workers.countP WorkerPc.isPopped = 0) :
    ∃ q, Leads poolSystem p q ∧ q.stopper = .returned ∧ q.producers = p.producers
      ∧ q.workers.countP WorkerPc.isPopped = 0 := by
  have hnotify : poolSystem.step p .terminate
      = some { p with workers := p.workers.map WorkerPc.notified, stopper := .join } := by
    show p.terminateStep = _
    rw [ThreadPool.terminateStep, hpc]
  have hD : Draining { p with
      workers := p.workers.map WorkerPc.notified, stopper := .join } :=
    ⟨hflag, hfree, NoWorkerBlocked.of_notifyAll (hW.none_of_free hfree).1⟩
  obtain ⟨q, hlead, hq⟩ := every_worker_leaves _ _ hD rfl
  have hclear : poolSystem.step { q with stopper := .clear } .terminate
      = some { q with taskQueue := [], stopper := .returned } :=
    if_neg (not_not_intro hq.draining.free)
  have hreturn : Leads poolSystem q { q with taskQueue := [], stopper := .returned } :=
    Leads.cons (joins_return hq.done hq.stopper) (Leads.one hclear)
  refine ⟨_, Leads.cons hnotify (hlead.trans hreturn), rfl, ?_, ?_⟩
  · exact hq.producers ((countP_isPopped_notified p.workers).trans hpop)
  · exact countP_zero_of_done (List.all_eq_true.mp hq.done) rfl

/-- A producer not covered when the flag is set can be left asleep. -/
theorem uncovered_producer_stranded {p p' : ThreadPool Task} {a : Act Task}
    (hr : Reachable poolSystem p) (ha : ¬ StoreCoversProducers p a)
    (hs : p.step a = some p') : ∃ q, Leads poolSystem p' q ∧ StrandsProducer q := by
  simp only [StoreCoversProducers, Classical.not_imp, Classical.not_and_iff_not_or_not,
    NoProducerWaits, Classical.not_forall, ne_eq, Classical.not_not, Nat.not_le] at ha
  obtain ⟨rfl, hpc, hun⟩ := ha
  have hstored : p' = { p with isStopThreadpool := true, stopper := .notifyAll } := by
    replace hs : p.terminateStep = some p' := hs
    rw [ThreadPool.terminateStep, hpc] at hs
    exact (Option.some.inj hs).symm
  have hr' : Reachable poolSystem p' := hr.step (a := .terminate) hs
  have hflag : p'.isStopThreadpool = true := by rw [hstored]
  have hnotify : p'.stopper = .notifyAll := by rw [hstored]
  have hun' : Uncovered p' := by
    rw [hstored]
    exact hun
  -- the tasks end, the holder of the mutex falls asleep, and `terminate_all` runs to its end
  obtain ⟨q, hlq, hq, hpop, hfq, hsq⟩ := Uncovered.tasks_end _ p' hun' rfl
  have hrq := hr'.leads hlq
  obtain ⟨t, hlt, hfree, hpopt, hasleep, hft, hst⟩ :=
    hq.falls_asleep (waitInv_of_reaches hrq) (mutexInv_of_reaches hrq) hpop
  obtain ⟨u, hlu, hret, hprod, hpopu⟩ :=
    terminate_all_returns (waitInv_of_reaches (hrq.leads hlt)) (hft.trans (hfq.trans hflag))
      (hst.trans (hsq.trans hnotify)) hfree hpopt
  obtain ⟨j, pc, hj, hpcAsleep⟩ := exists_getElem?_of_countP_pos hasleep
  refine ⟨u, hlq.trans (hlt.trans hlu), hret, ?_, hpopu⟩
  cases pc with
  | asleep task =>
      refine ⟨j, task, ?_⟩
      rw [hprod]
      exact hj
  | idle | stopTest | lock | wait | woken | notify => cases hpcAsleep

/-! ### A full queue -/

/-- A producer that finds room puts its task and goes on to its notification. -/
theorem putTask_room {p : ThreadPool Task} (hfree : p.taskQueueMutex = none)
    (hroom : p.taskQueue.length < maxTaskQuqueSize) (j : Nat) (task : Task) :
    p.putTask j task = some { p.setProducer j .notify with
      taskQueue := p.taskQueue ++ [task], enqueued := p.enqueued ++ [task] } := by
  rw [ThreadPool.putTask, if_neg (not_not_intro hfree),
    beq_false_of_ne (Nat.ne_of_lt hroom), Bool.false_and]
  rfl

/-- One that finds the queue full and the pool running goes to its wait. -/
theorem putTask_full {p : ThreadPool Task} (hfree : p.taskQueueMutex = none)
    (hfull : p.taskQueue.length = maxTaskQuqueSize) (hrun : p.isStopThreadpool = false)
    (j : Nat) (task : Task) :
    p.putTask j task = some { p.setProducer j (.wait task) with
      taskQueueMutex := some (.producer j) } := by
  rw [ThreadPool.putTask, if_neg (not_not_intro hfree), hfull, hrun, beq_self_eq_true]
  rfl

/-- One worker that has not run yet, and one producer that has enqueued `n` tasks. -/
def filledPool (n : Nat) : ThreadPool Unit where
  isStopThreadpool := false
  taskQueue := List.replicate n ()
  taskQueueMutex := none
  workers := [.lock]
  producers := [.idle]
  stopper := .idle
  enqueued := List.replicate n ()
  popped := []

/-- One producer fills the queue, one call of `add_task` after the other. -/
theorem filledPool_reachable :
    ∀ n, n ≤ maxTaskQuqueSize → Reachable poolSystem (filledPool n) := by
  intro n
  induction n with
  | zero => intro _; exact Reachable.start ⟨1, 1, rfl⟩
  | succ n ih =>
      intro hn
      have h2 : Reachable poolSystem { filledPool n with producers := [.lock ()] } :=
        (ih (Nat.le_of_succ_le hn)).exec (show exec poolSystem _
          [.addTask 0 (), .producer 0 none] = _ from rfl)
      have hput : poolSystem.step { filledPool n with producers := [.lock ()] }
          (.producer 0 none) = some { filledPool (n + 1) with producers := [.notify] } := by
        refine (putTask_room (p := { filledPool n with producers := [.lock ()] }) rfl ?_ 0
          ()).trans ?_
        · show (List.replicate n ()).length < maxTaskQuqueSize
          rw [List.length_replicate]
          exact hn
        · simp only [filledPool, List.replicate_succ']
          rfl
      exact (h2.step hput).step (show poolSystem.step _ (.producer 0 none) = _ from rfl)

/-- The producer of a full queue gets to its wait. -/
theorem filledPool_blocks {n : Nat} (hn : n = maxTaskQuqueSize) :
    Reachable poolSystem { filledPool n with
      producers := [.wait ()], taskQueueMutex := some (.producer 0) } := by
  have h0 := (filledPool_reachable n (Nat.le_of_eq hn)).exec
    (show exec poolSystem _ [.addTask 0 (), .producer 0 none] = _ from rfl)
  have hwait := putTask_full (p := { filledPool n with producers := [.lock ()] })
    rfl (List.length_replicate.trans hn) rfl 0 ()
  exact h0.step (a := .producer 0 none) hwait

/-- The flag is stored once, and nothing takes it back. -/
theorem before_store {p p' : ThreadPool Task} {a : Act Task} (hs : Step p a p')
    (hp : p'.stopper = .idle ∨ p'.stopper = .store) :
    (p.stopper = .idle ∨ p.stopper = .store) ∧ ¬ (a = .terminate ∧ p.stopper = .store) := by
  cases hs with
  | stopCalled hidle => exact ⟨Or.inl hidle, fun h => nomatch h.1⟩
  | stopStores | stopNotifies | stopJoins | stopClears => exact nomatch hp
  | workerWaits | workerLeaves | workerTakes | workerSleeps | workerEnds | workerWakesNone
  | workerWakes | workerSpurious | producerCalls | producerDeclined | producerAdmitted
  | producerWaits | producerPuts | producerSleeps | producerWakesNone | producerWakes
  | producerSpurious => exact ⟨hp, fun h => nomatch h.1⟩

/-- Before the store no step has broken a condition on the store. -/
theorem reaches_before_store {ok : ThreadPool Task → Act Task → Prop}
    (hok : ∀ p a, ¬ (a = .terminate ∧ p.stopper = .store) → ok p a) {p : ThreadPool Task}
    (h : Reachable poolSystem p) (hp : p.stopper = .idle ∨ p.stopper = .store) :
    Reaches poolSystem ok p := by
  refine Reaches.of_past (P := fun p => p.stopper = .idle ∨ p.stopper = .store) ?_ h hp
  intro s a s' hs hs'
  exact (before_store (step_cases hs) hs').imp_right (hok s a)

/-! ### Release -/

/-- **STOP RELEASES PRODUCERS**: in a run whose store of the flag finds no producer at `wait` and
    no more of them asleep than workers owing a notification, no producer is left asleep once
    `stop` has returned, and every blocked call of `add_task` can return.  After a store that
    finds it otherwise, the run can go on so that a producer is left asleep. -/
theorem stop_releases_producers (Task : Type) :
    (∀ p : ThreadPool Task, Reaches poolSystem StoreCoversProducers p →
      ¬ StrandsProducer p
      ∧ (p.stopper = .returned → ∀ (j : Nat) (pc : ProducerPc Task),
          p.producers[j]? = some pc →
          ∃ q, Leads poolSystem p q ∧ q.producers[j]? = some .idle))
    ∧ ∀ (p p' : ThreadPool Task) (a : Act Task), Reachable poolSystem p →
        ¬ StoreCoversProducers p a → p.step a = some p' →
        ∃ q, Leads poolSystem p' q ∧ StrandsProducer q := by
  refine ⟨fun p h => ⟨?_, ?_⟩, fun p p' a hr ha hs => uncovered_producer_stranded hr ha hs⟩
  · rintro ⟨hret, ⟨j, task, hj⟩, -⟩
    have hS := stopped_of_reaches h hret
    have hpos := countP_pos_of_getElem? hj (p := ProducerPc.isAsleep) rfl
    rw [hS.awake] at hpos
    exact Nat.lt_irrefl 0 hpos
  · intro hret j pc hpc
    exact call_returns (stopped_of_reaches h hret) hpc

/-- A full queue, its producer past the verdict, and the flag about to be set. -/
def aboutToSleep : ThreadPool Unit :=
  { filledPool maxTaskQuqueSize with
    producers := [.wait ()], taskQueueMutex := some (.producer 0), stopper := .store }

/-- The queue was full; its producer sleeps beside a worker that has popped a task, and the flag is
    about to be set. -/
def besideWorker : ThreadPool Unit :=
  { filledPool (maxTaskQuqueSize - 1) with
    workers := [.run ()], producers := [.asleep ()], stopper := .store
    enqueued := List.replicate maxTaskQuqueSize (), popped := [()] }

/-- The filled pool comes there: the producer falls asleep, the worker pops, `stop` is called. -/
theorem besideWorker_reachable : Reachable poolSystem besideWorker :=
  (filledPool_blocks rfl).exec
    (show exec poolSystem _ [.producer 0 none, .worker 0 none, .stop] = _ from rfl)

/-- A worker that has popped a task wakes the producer that sleeps on the full queue, and the call
    returns after `stop`; a producer about to sleep is left behind. -/
theorem stop_releases_sleeping_producer :
    (∃ p, Leads poolSystem besideWorker p ∧ p.stopper = .returned ∧ p.producers = [.woken ()]
      ∧ ¬ StrandsProducer p ∧ ∃ q, Leads poolSystem p q ∧ q.producers[0]? = some .idle)
    ∧ ∃ p q, poolSystem.step aboutToSleep .terminate = some p ∧ Leads poolSystem p q
      ∧ StrandsProducer q := by
  have hstore : Reaches poolSystem StoreCoversProducers besideWorker := reaches_before_store
    (fun _ _ hno ha hpc => absurd ⟨ha, hpc⟩ hno) besideWorker_reachable (Or.inr rfl)
  have hstored : poolSystem.step besideWorker .terminate
      = some { besideWorker with isStopThreadpool := true, stopper := .notifyAll } := rfl
  have hcovered : StoreCoversProducers besideWorker .terminate := by
    refine fun _ _ => ⟨fun j task hj => ?_, Nat.le_refl _⟩
    exact nomatch List.mem_singleton.mp (List.mem_of_getElem? hj)
  -- `notify_all`, the worker ends its task, notifies the producer and leaves, and `stop` returns
  have hexec : exec (only (fun p _ => p.stopper != .store) poolSystem)
      { besideWorker with isStopThreadpool := true, stopper := .notifyAll }
      [.terminate, .worker 0 none, .worker 0 (some 0), .worker 0 none, .terminate, .terminate]
      = some _ := rfl
  have hreach := reaches_of_only
    (fun _ _ hne _ hpc => absurd hpc (bne_iff_ne.mp hne)) (hstore.step hcovered hstored) hexec
  obtain ⟨hkept, hreturns⟩ := (stop_releases_producers Unit).1 _ hreach
  have hwait : Reachable poolSystem aboutToSleep :=
    (filledPool_blocks rfl).step (show poolSystem.step _ .stop = _ from rfl)
  have hlate : ¬ StoreCoversProducers aboutToSleep .terminate :=
    fun h => (h rfl rfl).1 0 () rfl
  obtain ⟨q, hq⟩ := (stop_releases_producers Unit).2 aboutToSleep _ .terminate hwait hlate rfl
  refine ⟨⟨_, Leads.cons hstored ⟨_, exec_only hexec⟩, rfl, rfl, hkept, ?_⟩, _, q, rfl, hq⟩
  exact hreturns rfl 0 _ rfl

/-- The queue is full, the only producer sleeps, the only worker has left, `stop` has
    returned. -/
def strandedProducer : ThreadPool Unit where
  isStopThreadpool := true
  taskQueue := []
  taskQueueMutex := none
  workers := [.done]
  producers := [.asleep ()]
  stopper := .returned
  enqueued := List.replicate maxTaskQuqueSize ()
  popped := []

/-- The producer finds the queue full and sleeps; the worker first runs after the flag is set and
    leaves without a task, so nothing ever notifies `task_put_`. -/
theorem producer_sleeps_through_stop :
    ¬ ∀ p : ThreadPool Unit, Reachable poolSystem p → ¬ StrandsProducer p := by
  intro h
  have hstop : Reachable poolSystem strandedProducer :=
    (filledPool_blocks rfl).exec (show exec poolSystem _ [.producer 0 none, .stop, .terminate,
      .terminate, .worker 0 none, .terminate, .terminate] = _ from rfl)
  exact h strandedProducer hstop ⟨rfl, ⟨0, (), rfl⟩, rfl⟩

end EasyRpcThreadPoolStop
