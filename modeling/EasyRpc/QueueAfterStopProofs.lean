import EasyRpc.TaskOrderProofs

/-! # The queue of a stopping pool — its bound and its end

    `add_task` tests the stop flag before it takes the mutex; `add_task_impl` waits only while the
    queue is full and the flag unset, and then appends, whatever ended the wait.  `run_task` asks
    for the flag again after its wait, `add_task_impl` does not.  So every producer that has
    passed the test when the flag is set will append its task, full queue or not, and one that
    comes after `clean_task_queue` leaves its task in the queue of a stopped pool for ever.

    * **`queue_bounded`** — the queue stays within `max_task_quque_size` exactly if it has room
      for all of them when the flag is stored;
    * **`stop_is_final`** — the queue of a stopped pool is empty exactly if none of them is left
      when the queue is cleared. -/

namespace EasyRpcQueueAfterStop

open Transition ThreadTable EasyRpcThreadPool EasyRpcThreadPoolStop EasyRpcTaskOrder

variable {Task : Type}

/-- The producer has passed the stop test of `add_task` and has not enqueued yet. -/
@[simp] def pastStopTest : ProducerPc Task → Bool
  | .lock _ => true
  | .wait _ => true
  | .asleep _ => true
  | .woken _ => true
  | _ => false

/-- The number of producers that will enqueue whether the pool is stopped or not. -/
def committed (p : ThreadPool Task) : Nat := p.producers.countP pastStopTest

/-- Once `stop` has returned the queue is empty and no step starts a task. -/
def Final (p : ThreadPool Task) : Prop :=
  p.stopper = .returned →
    p.taskQueue = []
    ∧ ∀ (a : Act Task) (p' : ThreadPool Task), p.step a = some p' → p'.popped = p.popped

/-- The condition on `clean_task_queue`: no producer is past the stop test. -/
def ClearMeetsNoProducer (p : ThreadPool Task) (a : Act Task) : Prop :=
  a = .terminate → p.stopper = .clear → committed p = 0

/-- The condition on the store of the flag: the queue has room for all producers past the stop
    test. -/
def StoreLeavesRoom (p : ThreadPool Task) (a : Act Task) : Prop :=
  a = .terminate → p.stopper = .store →
    p.taskQueue.length + committed p ≤ maxTaskQuqueSize

/-! ## Producers past the stop test -/

/-- Moving one producer changes what is committed by its own share. -/
theorem committed_setProducer {p : ThreadPool Task} {j : Nat} {pc : ProducerPc Task}
    (hpc : p.producers[j]? = some pc) (pc' : ProducerPc Task) :
    committed (p.setProducer j pc') + (if pastStopTest pc then 1 else 0)
      = committed p + (if pastStopTest pc' then 1 else 0) :=
  countP_move pastStopTest hpc pc'

/-- A move that does not pass the test commits nobody. -/
theorem committed_setProducer_le {p : ThreadPool Task} {j : Nat} {pc pc' : ProducerPc Task}
    (hpc : p.producers[j]? = some pc)
    (hpast : pastStopTest pc' = true → pastStopTest pc = true) :
    committed (p.setProducer j pc') ≤ committed p := by
  have hmove := committed_setProducer hpc pc'
  cases hpc' : pastStopTest pc' with
  | false =>
      rw [hpc'] at hmove
      exact Nat.le_of_add_right_le (Nat.le_of_eq hmove)
  | true =>
      rw [hpc', hpast hpc'] at hmove
      exact Nat.le_of_eq (Nat.add_right_cancel hmove)

/-- A producer that enqueues is no longer past the stop test only. -/
theorem committed_puts {p : ThreadPool Task} {j : Nat} {pc : ProducerPc Task} {task : Task}
    (hpc : p.producers[j]? = some pc) (hin : pc = .lock task ∨ pc = .woken task) :
    committed (p.setProducer j .notify) + 1 = committed p := by
  have hmove := committed_setProducer hpc .notify
  rcases hin with rfl | rfl <;> exact hmove

/-- What a step does under the flag: a producer past the stop test enqueues, the queue is
    cleared, or the queue stays and no producer passes the test. -/
theorem step_under_flag {p p' : ThreadPool Task} {a : Act Task}
    (hset : p.isStopThreadpool = true) (hs : Step p a p') :
    (p'.taskQueue.length = p.taskQueue.length + 1 ∧ committed p' + 1 = committed p
      ∧ p'.stopper = p.stopper)
    ∨ (a = .terminate ∧ p.stopper = .clear ∧ p'.taskQueue = [] ∧ committed p' = committed p)
    ∨ (p'.taskQueue = p.taskQueue ∧ committed p' ≤ committed p
      ∧ (p'.stopper = .returned → p.stopper = .returned)) := by
  cases hs with
  | producerPuts hpc hin hfree hroom =>
      refine Or.inl ⟨?_, committed_puts hpc hin, rfl⟩
      exact List.length_append.trans (congrArg _ List.length_singleton)
  | stopClears hpc hfree => exact Or.inr (Or.inl ⟨rfl, hpc, rfl, rfl⟩)
  | workerWaits hpc hin hfree hempty hrun | workerTakes hpc hin hfree hqueue hrun
  | producerAdmitted hpc hrun | producerWaits hpc hin hfree hfull hrun =>
      rw [hset] at hrun
      exact nomatch hrun
  | workerLeaves | workerSleeps | workerEnds | workerWakesNone | workerSpurious =>
      exact Or.inr (Or.inr ⟨rfl, Nat.le_refl _, id⟩)
  | producerCalls hpc | producerDeclined hpc | producerWakesNone hpc =>
      exact Or.inr (Or.inr ⟨rfl, committed_setProducer_le hpc nofun, id⟩)
  | producerSleeps hpc | producerSpurious hpc =>
      exact Or.inr (Or.inr ⟨rfl, committed_setProducer_le hpc fun _ => rfl, id⟩)
  | @workerWakes i j task hpc hsleep =>
      have hle : committed ((p.setWorker i .lock).setProducer j (.woken task))
          ≤ committed (p.setWorker i .lock) := committed_setProducer_le hsleep fun _ => rfl
      exact Or.inr (Or.inr ⟨rfl, hle, id⟩)
  | @producerWakes j i hpc hsleep =>
      have hle : committed (p.setProducer j .idle) ≤ committed p :=
        committed_setProducer_le hpc nofun
      exact Or.inr (Or.inr ⟨rfl, hle, id⟩)
  | stopCalled | stopStores | stopNotifies | stopJoins =>
      exact Or.inr (Or.inr ⟨rfl, Nat.le_refl _, nofun⟩)

/-! ## Conditions that keep the queue bounded and empty -/

/-- The bound, with the producers that are still to enqueue under the flag. -/
structure Roomy (p : ThreadPool Task) : Prop where
  bounded : p.taskQueue.length ≤ maxTaskQuqueSize
  stopped : p.isStopThreadpool = true → p.taskQueue.length + committed p ≤ maxTaskQuqueSize

/-- Before the flag is set a task is only enqueued where there is room. -/
theorem bounded_step {p p' : ThreadPool Task} {a : Act Task}
    (hbound : p.taskQueue.length ≤ maxTaskQuqueSize) (hrun : p.isStopThreadpool = false)
    (hs : Step p a p') : p'.taskQueue.length ≤ maxTaskQuqueSize := by
  cases hs with
  | workerTakes hpc hin hfree hqueue =>
      rw [hqueue, List.length_cons] at hbound
      exact Nat.le_of_succ_le hbound
  | producerPuts hpc hin hfree hroom =>
      rw [List.length_append, List.length_singleton]
      exact Nat.lt_of_le_of_ne hbound (hroom hrun)
  | stopClears => exact Nat.zero_le _
  | workerWaits | workerLeaves | workerSleeps | workerEnds | workerWakesNone | workerWakes
  | workerSpurious | producerCalls | producerDeclined | producerAdmitted | producerWaits
  | producerSleeps | producerWakesNone | producerWakes | producerSpurious | stopCalled
  | stopStores | stopNotifies | stopJoins => exact hbound

/-- The flag goes up in `terminate_all`, at the store. -/
theorem flag_raised {p p' : ThreadPool Task} {a : Act Task} (hrun : p.isStopThreadpool = false)
    (hset : p'.isStopThreadpool = true) (hs : Step p a p') :
    a = .terminate ∧ p.stopper = .store ∧ p'.stopper = .notifyAll
      ∧ p'.taskQueue = p.taskQueue ∧ committed p' = committed p := by
  cases hs with
  | stopStores hpc => exact ⟨rfl, hpc, rfl, rfl, rfl⟩
  | workerWaits | workerLeaves | workerTakes | workerSleeps | workerEnds | workerWakesNone
  | workerWakes | workerSpurious | producerCalls | producerDeclined | producerAdmitted
  | producerWaits | producerPuts | producerSleeps | producerWakesNone | producerWakes
  | producerSpurious | stopCalled | stopNotifies | stopJoins | stopClears =>
      rw [show p.isStopThreadpool = true from hset] at hrun
      exact nomatch hrun

/-- **THE STEP LEMMA OF THE BOUND**: unless the store leaves too little room, the room stays. -/
theorem Roomy.step {p p' : ThreadPool Task} {a : Act Task} (hI : Roomy p)
    (ha : StoreLeavesRoom p a) (hs : Step p a p') : Roomy p' := by
  cases hflag : p.isStopThreadpool with
  | false =>
      refine ⟨bounded_step hI.bounded hflag hs, ?_⟩
      intro hset
      obtain ⟨hterm, hstore, -, hqueue, hcommitted⟩ := flag_raised hflag hset hs
      rw [hqueue, hcommitted]
      exact ha hterm hstore
  | true =>
      have hroom := hI.stopped hflag
      have hnext : p'.taskQueue.length + committed p' ≤ maxTaskQuqueSize := by
        rcases step_under_flag hflag hs with
          ⟨hlen, hcommitted, -⟩ | ⟨-, -, hempty, hcommitted⟩ | ⟨hqueue, hcommitted, -⟩
        · omega
        · rw [hempty, hcommitted, List.length_nil]
          omega
        · rw [hqueue]
          omega
      exact ⟨Nat.le_of_add_right_le hnext, fun _ => hnext⟩

/-- In every run whose store leaves room, there is room. -/
theorem roomy_of_reaches {p : ThreadPool Task} (h : Reaches poolSystem StoreLeavesRoom p) :
    Roomy p := by
  refine h.invariant ?_ ?_
  · rintro p ⟨n, m, rfl⟩
    exact ⟨Nat.zero_le _, nofun⟩
  · intro p a p' hI ha hs
    exact hI.step ha (step_cases hs)

/-- Before the flag is set the queue is bounded in every run. -/
theorem bounded_of_unset {p : ThreadPool Task} (h : Reachable poolSystem p) :
    p.isStopThreadpool = false → p.taskQueue.length ≤ maxTaskQuqueSize := by
  refine Reaches.invariant
    (I := fun p => p.isStopThreadpool = false → p.taskQueue.length ≤ maxTaskQuqueSize) ?_ ?_ h
  · rintro p ⟨n, m, rfl⟩ -
    exact Nat.zero_le _
  · intro p a p' hI _ hs hrun'
    have hstep := step_cases hs
    cases hrun : p.isStopThreadpool with
    | false => exact bounded_step (hI hrun) hrun hstep
    | true =>
        rw [(popped_step hrun hstep).1] at hrun'
        exact nomatch hrun'

/-- A stopped pool has an empty queue, and nobody is left who will enqueue. -/
def Cleared (p : ThreadPool Task) : Prop :=
  p.stopper = .returned → p.taskQueue = [] ∧ committed p = 0

/-- **THE STEP LEMMA OF THE CLEARING**: unless a producer is met there, the queue stays empty
    after the return. -/
theorem Cleared.step {p p' : ThreadPool Task} {a : Act Task} (hF : FlagInv p) (hI : Cleared p)
    (ha : ClearMeetsNoProducer p a) (hs : Step p a p') : Cleared p' := by
  intro hret
  have hset' : p'.isStopThreadpool = true := (hF.step hs).set (Or.inr (Or.inr (Or.inr hret)))
  cases hflag : p.isStopThreadpool with
  | false =>
      -- the step that raises the flag is far from the return
      obtain ⟨-, -, hnotify, -, -⟩ := flag_raised hflag hset' hs
      rw [hnotify] at hret
      exact nomatch hret
  | true =>
      rcases step_under_flag hflag hs with
        ⟨-, hcommitted, hsame⟩ | ⟨hterm, hclear, hempty, hcommitted⟩
          | ⟨hqueue, hcommitted, hbefore⟩
      · obtain ⟨-, hzero⟩ := hI (hsame ▸ hret)
        rw [hzero] at hcommitted
        exact nomatch hcommitted
      · exact ⟨hempty, hcommitted.trans (ha hterm hclear)⟩
      · obtain ⟨hempty, hzero⟩ := hI (hbefore hret)
        exact ⟨hqueue.trans hempty, Nat.eq_zero_of_le_zero (hzero ▸ hcommitted)⟩

/-- In every run whose clearing meets no producer, the queue stays empty. -/
theorem cleared_of_reaches {p : ThreadPool Task}
    (h : Reaches poolSystem ClearMeetsNoProducer p) : Cleared p := by
  refine h.invariant_of (J := FlagInv) (fun _ hr => flagInv_of_reaches hr) ?_ ?_
  · rintro p ⟨n, m, rfl⟩ hret
    exact nomatch hret
  · intro p a p' hF hI ha hs
    exact hI.step hF ha (step_cases hs)

/-! ## A committed producer enqueues -/

/-- A producer past the stop test enqueues under the flag, once the mutex is free: asleep it
    wakes by itself, and what it finds does not matter. -/
theorem committed_enqueues {p : ThreadPool Task} (hW : WaitInv p)
    (hset : p.isStopThreadpool = true) (hfree : p.taskQueueMutex = none)
    (hpos : 0 < committed p) :
    ∃ q, Leads poolSystem p q ∧ q.taskQueue.length = p.taskQueue.length + 1
      ∧ committed q + 1 = committed p ∧ q.isStopThreadpool = true
      ∧ q.taskQueueMutex = none ∧ q.stopper = p.stopper := by
  obtain ⟨j, pc, hpc, hpast⟩ := exists_getElem?_of_countP_pos hpos
  have hlen : ∀ task : Task, (p.taskQueue ++ [task]).length = p.taskQueue.length + 1 :=
    fun task => List.length_append.trans (congrArg _ List.length_singleton)
  have hput : ∀ task, pc = .lock task ∨ pc = .woken task →
      poolSystem.step p (.producer j none) = some { p.setProducer j .notify with
        taskQueue := p.taskQueue ++ [task], enqueued := p.enqueued ++ [task] } := by
    intro task hin
    show p.producerStep j none = _
    rw [ThreadPool.producerStep, hpc]
    rcases hin with rfl | rfl <;> exact putTask_stopped hset hfree j task
  cases pc with
  | lock task =>
      exact ⟨_, Leads.one (hput task (Or.inl rfl)), hlen task, committed_puts hpc (Or.inl rfl),
        hset, hfree, rfl⟩
  | woken task =>
      exact ⟨_, Leads.one (hput task (Or.inr rfl)), hlen task, committed_puts hpc (Or.inr rfl),
        hset, hfree, rfl⟩
  | wait task => exact absurd hpc ((hW.none_of_free hfree).2 j task)
  | asleep task =>
      have hwake := wakeProducer_asleep hpc
      have hwoken : (p.setProducer j (.woken task)).producers[j]? = some (.woken task) :=
        getElem?_set_moved hpc
      have hstep : poolSystem.step (p.setProducer j (.woken task)) (.producer j none)
          = some { (p.setProducer j (.woken task)).setProducer j .notify with
            taskQueue := p.taskQueue ++ [task], enqueued := p.enqueued ++ [task] } := by
        show (p.setProducer j (.woken task)).producerStep j none = _
        rw [ThreadPool.producerStep, hwoken]
        exact putTask_stopped (p := p.setProducer j (.woken task)) hset hfree j task
      have hsame := committed_setProducer hpc (.woken task)
      exact ⟨_, Leads.cons hwake (Leads.one hstep), hlen task,
        (committed_puts hwoken (Or.inr rfl)).trans (Nat.add_right_cancel hsame), hset, hfree,
        rfl⟩
  | idle | stopTest | notify => cases hpast

/-- All producers past the stop test enqueue, one after the other. -/
theorem all_committed_enqueue (n : Nat) :
    ∀ {p : ThreadPool Task}, Reachable poolSystem p → p.isStopThreadpool = true →
      p.taskQueueMutex = none → committed p = n →
      ∃ q, Leads poolSystem p q ∧ q.taskQueue.length = p.taskQueue.length + n := by
  induction n with
  | zero => exact fun _ _ _ _ => ⟨_, Leads.refl _ _, rfl⟩
  | succ n ih =>
      intro p hr hset hfree hn
      obtain ⟨q, hlead, hlen, hcommitted, hset', hfree', -⟩ :=
        committed_enqueues (waitInv_of_reaches hr) hset hfree (by omega)
      obtain ⟨t, hrest, hlen'⟩ := ih (hr.leads hlead) hset' hfree' (by omega)
      exact ⟨t, hlead.trans hrest, by omega⟩

/-- The thread that holds the mutex falls asleep, and nothing else changes. -/
theorem mutex_released {p : ThreadPool Task} (hM : MutexInv p) :
    ∃ q, Leads poolSystem p q ∧ q.taskQueueMutex = none ∧ q.taskQueue = p.taskQueue
      ∧ committed q = committed p ∧ q.isStopThreadpool = p.isStopThreadpool := by
  rcases hM.released with hfree | ⟨i, -, hsleep⟩ | ⟨j, task, hj, hsleep⟩
  · exact ⟨p, Leads.refl _ p, hfree, rfl, rfl, rfl⟩
  · exact ⟨_, Leads.one hsleep, rfl, rfl, rfl, rfl⟩
  · have hsame := committed_setProducer hj (.asleep task)
    exact ⟨_, Leads.one hsleep, rfl, rfl, Nat.add_right_cancel hsame, rfl⟩

/-! ## The bound -/

/-- **THE QUEUE IS BOUNDED** in every run whose store of the flag leaves room for the producers
    past the stop test; after a store that does not, the run can go on past the bound. -/
theorem queue_bounded (Task : Type) :
    (∀ p : ThreadPool Task, Reaches poolSystem StoreLeavesRoom p →
      p.taskQueue.length ≤ maxTaskQuqueSize)
    ∧ ∀ (p p' : ThreadPool Task) (a : Act Task), Reachable poolSystem p →
        ¬ StoreLeavesRoom p a → p.step a = some p' →
        ∃ q, Leads poolSystem p' q ∧ maxTaskQuqueSize < q.taskQueue.length := by
  refine ⟨fun p h => (roomy_of_reaches h).bounded, ?_⟩
  intro p p' a hr ha hs
  simp only [StoreLeavesRoom, Classical.not_imp, Nat.not_le] at ha
  obtain ⟨rfl, hpc, hmany⟩ := ha
  have hstored : p' = { p with isStopThreadpool := true, stopper := .notifyAll } := by
    replace hs : p.terminateStep = some p' := hs
    rw [ThreadPool.terminateStep, hpc] at hs
    exact (Option.some.inj hs).symm
  have hr' : Reachable poolSystem p' := hr.step (a := .terminate) hs
  obtain ⟨q, hlead, hfree, hqueue, hcommitted, hflag⟩ := mutex_released (mutexInv_of_reaches hr')
  have hset : q.isStopThreadpool = true := by rw [hflag, hstored]
  obtain ⟨t, hrest, hlen⟩ := all_committed_enqueue _ (hr'.leads hlead) hset hfree rfl
  refine ⟨t, hlead.trans hrest, ?_⟩
  rw [hlen, hqueue, hcommitted, hstored]
  exact hmany

/-- The flag has been stored over `n` queued tasks and a producer that has passed the stop test. -/
def storedPool (n : Nat) : ThreadPool Unit :=
  { filledPool n with
    isStopThreadpool := true, stopper := .notifyAll, producers := [.lock ()] }

/-- The producer has appended its task. -/
def grownPool (n : Nat) : ThreadPool Unit :=
  { storedPool n with
    producers := [.notify]
    taskQueue := List.replicate n () ++ [()], enqueued := List.replicate n () ++ [()] }

/-- After the store a producer puts its task into the full queue. -/
theorem storedPool_puts (n : Nat) :
    poolSystem.step (storedPool n) (.producer 0 none) = some (grownPool n) :=
  putTask_stopped (p := storedPool n) rfl rfl 0 ()

/-- A full queue and a producer that has passed the stop test, about to be stopped. -/
def fullAtStore : ThreadPool Unit :=
  { filledPool maxTaskQuqueSize with producers := [.lock ()], stopper := .store }

/-- The full queue with a producer past its test is reached. -/
theorem fullAtStore_reachable : Reachable poolSystem fullAtStore :=
  (filledPool_reachable maxTaskQuqueSize (Nat.le_refl _)).exec
    (show exec poolSystem _ [.addTask 0 (), .producer 0 none, .stop] = _ from rfl)

/-- Room for one task, a producer that has passed the stop test with it, and the pool about to be
    stopped. -/
def roomAtStore : ThreadPool Unit :=
  { filledPool (maxTaskQuqueSize - 1) with producers := [.lock ()], stopper := .store }

theorem roomAtStore_reachable : Reachable poolSystem roomAtStore :=
  (filledPool_reachable (maxTaskQuqueSize - 1) (Nat.sub_le _ _)).exec
    (show exec poolSystem _ [.addTask 0 (), .producer 0 none, .stop] = _ from rfl)

/-- The last task for which there is room comes in after the flag has been stored, and the queue
    stays within the bound; where the flag is stored over a full queue it can leave it. -/
theorem queue_bounded_at_store :
    (Leads poolSystem roomAtStore (grownPool (maxTaskQuqueSize - 1))
      ∧ (grownPool (maxTaskQuqueSize - 1)).taskQueue.length ≤ maxTaskQuqueSize)
    ∧ ∃ p q, poolSystem.step fullAtStore .terminate = some p ∧ Leads poolSystem p q
      ∧ maxTaskQuqueSize < q.taskQueue.length := by
  have hstore : Reaches poolSystem StoreLeavesRoom roomAtStore := reaches_before_store
    (fun _ _ hno ha hpc => absurd ⟨ha, hpc⟩ hno) roomAtStore_reachable (Or.inr rfl)
  have hstored : poolSystem.step roomAtStore .terminate
      = some (storedPool (maxTaskQuqueSize - 1)) := rfl
  have hput := storedPool_puts (maxTaskQuqueSize - 1)
  have hroom : StoreLeavesRoom roomAtStore .terminate := by
    intro _ _
    have hlen : roomAtStore.taskQueue.length = maxTaskQuqueSize - 1 := List.length_replicate
    rw [hlen]
    exact Nat.le_refl _
  have hafter : StoreLeavesRoom (storedPool (maxTaskQuqueSize - 1)) (.producer 0 none) := nofun
  have hgood := (queue_bounded Unit).1 _ ((hstore.step hroom hstored).step hafter hput)
  have hfull : ¬ StoreLeavesRoom fullAtStore .terminate := by
    intro h
    have hle := h rfl rfl
    have hlen : fullAtStore.taskQueue.length = maxTaskQuqueSize := List.length_replicate
    have hone : committed fullAtStore = 1 := rfl
    omega
  obtain ⟨q, hq⟩ := (queue_bounded Unit).2 _ _ .terminate fullAtStore_reachable hfull rfl
  exact ⟨⟨Leads.cons hstored (Leads.one hput), hgood⟩, _, q, rfl, hq⟩

/-- The flag is stored over a queue of any length, and the producer that has passed the test
    appends its task. -/
theorem filledPool_grows {n : Nat} (hn : n ≤ maxTaskQuqueSize) :
    Reachable poolSystem (grownPool n) := by
  have hstored : Reachable poolSystem (storedPool n) :=
    (filledPool_reachable n hn).exec (show exec poolSystem _
      [.addTask 0 (), .producer 0 none, .stop, .terminate] = _ from rfl)
  exact hstored.step (storedPool_puts n)

/-- The flag is stored while the queue is full; the producer then finds it full and the flag set,
    and appends the task number 100001. -/
theorem full_queue_grows_at_stop :
    ¬ ∀ p : ThreadPool Unit, Reachable poolSystem p → p.taskQueue.length ≤ maxTaskQuqueSize := by
  intro h
  have hle := h _ (filledPool_grows (Nat.le_refl _))
  rw [grownPool, List.length_append, List.length_replicate, List.length_singleton] at hle
  exact Nat.not_succ_le_self _ hle

/-! ## The end -/

/-- **STOP IS FINAL** in every run whose queue is cleared with no producer past the stop test;
    after a clearing that leaves one, the run can go on so that a stopped pool holds a task. -/
theorem stop_is_final (Task : Type) :
    (∀ p : ThreadPool Task, Reaches poolSystem ClearMeetsNoProducer p → Final p)
    ∧ ∀ (p p' : ThreadPool Task) (a : Act Task), Reachable poolSystem p →
        ¬ ClearMeetsNoProducer p a → p.step a = some p' →
        ∃ q, Leads poolSystem p' q ∧ ¬ Final q := by
  constructor
  · intro p h hret
    refine ⟨(cleared_of_reaches h hret).1, ?_⟩
    intro a p' hs
    have hset := (flagInv_of_reaches h).set (Or.inr (Or.inr (Or.inr hret)))
    exact (popped_step hset (step_cases hs)).2
  · intro p p' a hr ha hs
    simp only [ClearMeetsNoProducer, Classical.not_imp] at ha
    obtain ⟨rfl, hpc, hsome⟩ := ha
    have hr' : Reachable poolSystem p' := hr.step (a := .terminate) hs
    have hset : p.isStopThreadpool = true :=
      (flagInv_of_reaches hr).set (Or.inr (Or.inr (Or.inl hpc)))
    have hcleared : p.taskQueueMutex = none
        ∧ p' = { p with taskQueue := [], stopper := .returned } := by
      replace hs : p.terminateStep = some p' := hs
      rw [ThreadPool.terminateStep, hpc] at hs
      obtain ⟨hfree, heq⟩ := Option.ite_none_left_eq_some.mp hs
      exact ⟨Decidable.not_not.mp hfree, (Option.some.inj heq).symm⟩
    obtain ⟨hfree, heq⟩ := hcleared
    have hpos : 0 < committed p' := by
      rw [heq]
      exact Nat.pos_of_ne_zero hsome
    obtain ⟨q, hlead, hlen, -, -, -, hret⟩ :=
      committed_enqueues (waitInv_of_reaches hr') (heq ▸ hset) (heq ▸ hfree) hpos
    refine ⟨q, hlead, ?_⟩
    intro hfinal
    obtain ⟨hempty, -⟩ := hfinal (by rw [hret, heq])
    rw [hempty] at hlen
    cases hlen

/-- A pool that has stopped while a producer was between its test of the flag and the mutex. -/
def lateProducer : ThreadPool Nat where
  isStopThreadpool := true
  taskQueue := []
  taskQueueMutex := none
  workers := [.done]
  producers := [.lock 5]
  stopper := .returned
  enqueued := []
  popped := []

/-- The joins are over, and a producer has passed the stop test before the flag was set. -/
def lateAtClear : ThreadPool Nat := { lateProducer with stopper := .clear }

theorem lateAtClear_reachable : Reachable poolSystem lateAtClear := by
  have hstart : Reachable poolSystem (ThreadPool.initial 1 1 : ThreadPool Nat) :=
    Reachable.start ⟨1, 1, rfl⟩
  exact hstart.exec (show exec poolSystem _ [.addTask 0 5, .producer 0 none, .stop, .terminate,
    .terminate, .worker 0 none, .terminate] = _ from rfl)

/-- One task is queued and a second one has passed the stop test when the pool is stopped; it comes
    into the queue before the joins are over. -/
def stoppedOverTasks : List (Act Nat) :=
  [.addTask 0 5, .producer 0 none, .producer 0 none, .producer 0 none, .addTask 0 6,
    .producer 0 none, .stop, .terminate, .producer 0 none, .producer 0 none, .terminate,
    .worker 0 none, .terminate, .terminate]

/-- A pool that discards both its tasks has an empty queue for good; one that is cleared before its
    late producer enqueues has not. -/
theorem stop_is_final_at_clear :
    (∃ p : ThreadPool Nat, exec poolSystem (ThreadPool.initial 1 1) stoppedOverTasks = some p
      ∧ p.stopper = .returned ∧ p.enqueued = [5, 6] ∧ p.popped = [] ∧ Final p)
    ∧ ∃ p q, poolSystem.step lateAtClear .terminate = some p ∧ Leads poolSystem p q
      ∧ ¬ Final q := by
  have hexec : exec (only (fun p _ => p.stopper != .clear || committed p == 0) poolSystem)
      (ThreadPool.initial 1 1) stoppedOverTasks = some _ := rfl
  have hstart : Reaches poolSystem ClearMeetsNoProducer (ThreadPool.initial 1 1 : ThreadPool Nat) :=
    Reaches.start ⟨1, 1, rfl⟩
  have hmeets : ∀ (p : ThreadPool Nat) (a : Act Nat),
      (p.stopper != .clear || committed p == 0) = true → ClearMeetsNoProducer p a := by
    intro p a h _ hpc
    rw [hpc] at h
    exact beq_iff_eq.mp h
  have hreturned := reaches_of_only hmeets hstart hexec
  have hgood := (stop_is_final Nat).1 _ hreturned
  have hlate : ¬ ClearMeetsNoProducer lateAtClear .terminate :=
    fun h => nomatch (h rfl rfl : 1 = 0)
  obtain ⟨q, hq⟩ := (stop_is_final Nat).2 _ _ .terminate lateAtClear_reachable hlate rfl
  exact ⟨⟨_, rfl, rfl, rfl, rfl, hgood⟩, _, q, rfl, hq⟩

/-- The producer passes the stop test, `stop` runs from beginning to end, and the producer
    enqueues its task. -/
theorem task_outlives_stop :
    ¬ ∀ p : ThreadPool Nat, Reachable poolSystem p → Final p := by
  intro h
  have hr : Reachable poolSystem { lateProducer with
      taskQueue := [5], producers := [.notify], enqueued := [5] } :=
    lateAtClear_reachable.exec
      (show exec poolSystem _ [.terminate, .producer 0 none] = _ from rfl)
  exact nomatch (h _ hr rfl).1

end EasyRpcQueueAfterStop
