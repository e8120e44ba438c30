import EasyRpc.ThreadPoolProofs
import Mathlib.Tactic.ByContra

/-! # The tasks a pool holds

    A task given to `add_task` is with the producer that carries it, then in the queue, then with
    the worker that runs it, and then gone.  `held q` counts the tasks of a kind `q` over all
    three.  What comes in with `add_task` is held until it is let go (`held_released`): when its
    worker has ended it, when the producer is turned away, or when the queue is cleared.  So a
    task is never in two places, and whatever holds of all tasks that come in holds of all tasks
    held. -/

namespace EasyRpcTaskCustody

open ThreadTable EasyRpcThreadPool

variable {Task : Type}

/-- The worker runs a task of the kind. -/
@[simp] def runs (q : Task → Bool) : WorkerPc Task → Bool
  | .run task => q task
  | _ => false

/-- The producer carries a task of the kind that it has not put into the queue yet. -/
@[simp] def carries (q : Task → Bool) : ProducerPc Task → Bool
  | .stopTest task => q task
  | .lock task => q task
  | .wait task => q task
  | .asleep task => q task
  | .woken task => q task
  | _ => false

/-- The number of tasks of a kind that the pool holds. -/
def held (q : Task → Bool) (p : ThreadPool Task) : Nat :=
  p.producers.countP (carries q) + p.taskQueue.countP q + p.workers.countP (runs q)

/-- One task of the kind, or none. -/
def weight (b : Bool) : Nat := if b then 1 else 0

/-- Workers at the top of their loop run nothing. -/
theorem countP_runs_lock (q : Task → Bool) (n : Nat) :
    (List.replicate n (WorkerPc.lock : WorkerPc Task)).countP (runs q) = 0 :=
  List.countP_eq_zero.mpr fun pc hpc => by
    rw [List.eq_of_mem_replicate hpc]
    exact Bool.false_ne_true

theorem held_initial (q : Task → Bool) (n m : Nat) : held q (.initial n m) = 0 := by
  have hp : (List.replicate m (ProducerPc.idle : ProducerPc Task)).countP (carries q) = 0 :=
    List.countP_eq_zero.mpr fun pc hpc => by
      rw [List.eq_of_mem_replicate hpc]
      exact Bool.false_ne_true
  show _ + _ + _ = 0
  rw [ThreadPool.initial, hp, countP_runs_lock]
  rfl

/-- A worker changes its place. -/
theorem held_setWorker (q : Task → Bool) {p : ThreadPool Task} {i : Nat} {pc : WorkerPc Task}
    (hpc : p.workers[i]? = some pc) (pc' : WorkerPc Task) :
    held q (p.setWorker i pc') + weight (runs q pc) = held q p + weight (runs q pc') := by
  have hmove := countP_move (runs q) hpc pc'
  show p.producers.countP (carries q) + p.taskQueue.countP q
    + (p.workers.set i pc').countP (runs q) + weight (runs q pc) = _
  simp only [held, weight]
  omega

/-- A producer changes its place. -/
theorem held_setProducer (q : Task → Bool) {p : ThreadPool Task} {j : Nat}
    {pc : ProducerPc Task} (hpc : p.producers[j]? = some pc) (pc' : ProducerPc Task) :
    held q (p.setProducer j pc') + weight (carries q pc)
      = held q p + weight (carries q pc') := by
  have hmove := countP_move (carries q) hpc pc'
  show (p.producers.set j pc').countP (carries q) + p.taskQueue.countP q
    + p.workers.countP (runs q) + weight (carries q pc) = _
  simp only [held, weight]
  omega

/-- `notify_all` moves only workers that run nothing. -/
theorem countP_runs_notified (q : Task → Bool) (l : List (WorkerPc Task)) :
    (l.map WorkerPc.notified).countP (runs q) = l.countP (runs q) := by
  rw [List.countP_map]
  congr 1
  funext pc
  cases pc <;> rfl

/-- What comes in with an action. -/
def brought (q : Task → Bool) : Act Task → Nat
  | .addTask _ task => weight (q task)
  | _ => 0

/-- What the pool lets go with an action: the task that a worker has ended, the task of a producer
    turned away at the stop test, and the queue that `terminate_all` clears. -/
def released (p : ThreadPool Task) : Act Task → List Task
  | .worker i _ =>
      match p.workers[i]? with
      | some (.run task) => [task]
      | _ => []
  | .producer j _ =>
      match p.producers[j]? with
      | some (.stopTest task) => if p.isStopThreadpool then [task] else []
      | _ => []
  | .terminate => if p.stopper = .clear then p.taskQueue else []
  | _ => []

theorem released_worker {p : ThreadPool Task} {i : Nat} {pc : WorkerPc Task}
    (hpc : p.workers[i]? = some pc) (hno : ∀ task, pc ≠ .run task) (w : Option Nat) :
    released p (.worker i w) = [] := by
  rw [released, hpc]
  cases pc with
  | run task => exact absurd rfl (hno task)
  | lock | wait | asleep | woken | notify | done => rfl

theorem released_run {p : ThreadPool Task} {i : Nat} {task : Task}
    (hpc : p.workers[i]? = some (.run task)) (w : Option Nat) :
    released p (.worker i w) = [task] := by
  rw [released, hpc]

/-- A producer lets a task go only where the stop turns it away. -/
theorem released_producer {p : ThreadPool Task} {j : Nat} {pc : ProducerPc Task}
    (hpc : p.producers[j]? = some pc)
    (hno : ∀ task, pc = .stopTest task → p.isStopThreadpool = false) (w : Option Nat) :
    released p (.producer j w) = [] := by
  rw [released, hpc]
  cases pc with
  | stopTest task => exact if_neg (Bool.eq_false_iff.mp (hno task rfl))
  | idle | lock | wait | asleep | woken | notify => rfl

/-- The stop lets tasks go only where it clears the queue. -/
theorem released_terminate {p : ThreadPool Task} (hno : p.stopper ≠ .clear) :
    released p .terminate = [] :=
  if_neg hno

/-- **CUSTODY**: what the pool holds after a step, and what it let go, add up to what it held
    before and what `add_task` brought. -/
theorem held_released (q : Task → Bool) {p p' : ThreadPool Task} {a : Act Task}
    (hs : Step p a p') : held q p' + (released p a).countP q = held q p + brought q a := by
  -- a thread that only changes its place: what it had, it still has
  have hworker : ∀ {i : Nat} {w : Option Nat} {pc pc' : WorkerPc Task},
      p.workers[i]? = some pc → (∀ task, pc ≠ .run task) → (∀ task, pc' ≠ .run task) →
      held q (p.setWorker i pc') + (released p (.worker i w)).countP q = held q p := by
    intro i w pc pc' hpc hno hno'
    have hmove := held_setWorker q hpc pc'
    have hzero : ∀ pc : WorkerPc Task, (∀ task, pc ≠ .run task) → weight (runs q pc) = 0 := by
      intro pc hno
      cases pc with
      | run task => exact absurd rfl (hno task)
      | lock | wait | asleep | woken | notify | done => rfl
    rw [released_worker hpc hno, List.countP_nil]
    rw [hzero pc hno, hzero pc' hno'] at hmove
    exact hmove
  have hproducer : ∀ {j : Nat} {w : Option Nat} {pc pc' : ProducerPc Task},
      p.producers[j]? = some pc → (∀ task, pc = .stopTest task → p.isStopThreadpool = false) →
      carries q pc' = carries q pc →
      held q (p.setProducer j pc') + (released p (.producer j w)).countP q = held q p := by
    intro j w pc pc' hpc hno hsame
    have hmove := held_setProducer q hpc pc'
    rw [hsame] at hmove
    rw [released_producer hpc hno, List.countP_nil]
    exact Nat.add_right_cancel hmove
  cases hs with
  | workerWaits hpc hin | workerLeaves hpc hin =>
      refine hworker hpc ?_ nofun
      rcases hin with rfl | rfl <;> exact nofun
  | @workerTakes i w pc task rest hpc hin hfree hqueue hrun =>
      have hmove := held_setWorker q hpc (.run task)
      have htake : p.taskQueue.countP q = rest.countP q + weight (q task) := by
        rw [hqueue, List.countP_cons, weight]
      have hnone : weight (runs q pc) = 0 := by rcases hin with rfl | rfl <;> rfl
      have hkept : released p (.worker i w) = [] := by
        refine released_worker hpc ?_ w
        rcases hin with rfl | rfl <;> exact nofun
      rw [hkept, List.countP_nil]
      simp only [held, ThreadPool.setWorker, brought, runs] at hmove hnone ⊢
      omega
  | workerSleeps hpc => exact hworker hpc nofun nofun
  | @workerEnds i w task hpc =>
      have hmove := held_setWorker q hpc .notify
      rw [released_run hpc, List.countP_singleton]
      exact hmove
  | workerWakesNone hpc hnone => exact hworker hpc nofun nofun
  | @workerWakes i j task hpc hsleep =>
      have hw : held q (p.setWorker i .lock) + (released p (.worker i (some j))).countP q
          = held q p := hworker hpc nofun nofun
      have hp := held_setProducer q (p := p.setWorker i .lock) hsleep (.woken task)
      rw [← Nat.add_right_cancel hp] at hw
      exact hw
  | workerSpurious hpc => exact held_setWorker q hpc .woken
  | producerCalls hpc => exact held_setProducer q hpc (.stopTest _)
  | @producerDeclined j w task hpc hstop =>
      have hmove := held_setProducer q hpc .idle
      have hgone : released p (.producer j w) = [task] := by
        rw [released, hpc]
        exact if_pos hstop
      rw [hgone, List.countP_singleton]
      exact hmove
  | @producerAdmitted j w task hpc hrun =>
      refine hproducer hpc ?_ rfl
      exact fun _ _ => hrun
  | @producerWaits j w pc task hpc hin hfree hfull hrun =>
      refine hproducer hpc ?_ ?_
      · exact fun _ _ => hrun
      · rcases hin with rfl | rfl <;> rfl
  | @producerPuts j w pc task hpc hin hfree hroom =>
      have hmove := held_setProducer q hpc .notify
      have hput : (p.taskQueue ++ [task]).countP q = p.taskQueue.countP q + weight (q task) := by
        rw [List.countP_append, List.countP_singleton, weight]
      have hnone : weight (carries q pc) = weight (q task) := by rcases hin with rfl | rfl <;> rfl
      have hkept : released p (.producer j w) = [] := by
        refine released_producer hpc ?_ w
        rcases hin with rfl | rfl <;> exact nofun
      rw [hkept, List.countP_nil]
      simp only [held, ThreadPool.setProducer, brought] at hmove ⊢
      rw [hput]
      have hzero : weight (carries q (.notify : ProducerPc Task)) = 0 := rfl
      omega
  | producerSleeps hpc => exact hproducer hpc nofun rfl
  | producerWakesNone hpc hnone => exact hproducer hpc nofun rfl
  | @producerWakes j i hpc hsleep =>
      have hp : held q (p.setProducer j .idle) + (released p (.producer j (some i))).countP q
          = held q p := hproducer hpc nofun rfl
      have hw := held_setWorker q (p := p.setProducer j .idle) hsleep .woken
      rw [← Nat.add_right_cancel hw] at hp
      exact hp
  | @producerSpurious j task hpc =>
      exact Nat.add_right_cancel (held_setProducer q hpc (.woken task))
  | stopCalled => rfl
  | stopStores hpc | stopJoins hpc =>
      rw [released_terminate (hpc ▸ nofun)]
      rfl
  | stopNotifies hpc =>
      rw [released_terminate (hpc ▸ nofun)]
      simp only [held, brought, countP_runs_notified, List.countP_nil, Nat.add_zero]
  | stopClears hpc =>
      have hgone : released p .terminate = p.taskQueue := if_pos hpc
      rw [hgone]
      simp only [held, brought, List.countP_nil]
      omega

/-- No step holds more than before, but for what `add_task` brings. -/
theorem held_step (q : Task → Bool) {p p' : ThreadPool Task} {a : Act Task}
    (hs : Step p a p') : held q p' ≤ held q p + brought q a :=
  Nat.le_of_add_right_le (Nat.le_of_eq (held_released q hs))

theorem held_mono {q q' : Task → Bool} (p : ThreadPool Task)
    (h : ∀ task, q task = true → q' task = true) : held q p ≤ held q' p := by
  have hp : p.producers.countP (carries q) ≤ p.producers.countP (carries q') :=
    List.countP_mono_left fun pc _ hpc => by
      cases pc with
      | idle | notify => exact nomatch hpc
      | stopTest | lock | wait | asleep | woken => exact h _ hpc
  have hw : p.workers.countP (runs q) ≤ p.workers.countP (runs q') :=
    List.countP_mono_left fun pc _ hpc => by
      cases pc with
      | run => exact h _ hpc
      | lock | wait | asleep | woken | notify | done => exact nomatch hpc
  have hq : p.taskQueue.countP q ≤ p.taskQueue.countP q' :=
    List.countP_mono_left fun task _ => h task
  exact Nat.add_le_add (Nat.add_le_add hp hq) hw

/-- Where no task of a kind is held, none of a narrower kind is. -/
theorem held_none {q q' : Task → Bool} {p : ThreadPool Task} (hnone : held q' p = 0)
    (h : ∀ task, q task = true → q' task = true) : held q p = 0 :=
  Nat.eq_zero_of_le_zero (hnone ▸ held_mono p h)

/-- A worker that runs a task of the kind is counted. -/
theorem held_pos {q : Task → Bool} {p : ThreadPool Task} {i : Nat} {task : Task}
    (hrun : p.workers[i]? = some (.run task)) (hq : q task = true) : 0 < held q p :=
  Nat.add_pos_right _ (countP_pos_of_getElem? hrun hq)

/-- Every task held has the property: nothing that lacks it is counted. -/
def AllHeld (P : Task → Prop) (p : ThreadPool Task) : Prop :=
  ∀ q : Task → Bool, (∀ task, q task = true → ¬ P task) → held q p = 0

open Classical in
/-- What holds of all held tasks holds of one that runs. -/
theorem AllHeld.run {P : Task → Prop} {p : ThreadPool Task} (h : AllHeld P p) {i : Nat}
    {task : Task} (hrun : p.workers[i]? = some (.run task)) : P task := by
  by_contra hno
  have hzero := h (fun task => decide (¬ P task)) fun _ hq => of_decide_eq_true hq
  have hpos := held_pos (q := fun task => decide (¬ P task)) hrun (decide_eq_true hno)
  exact Nat.ne_of_gt hpos hzero

theorem AllHeld.imp {P P' : Task → Prop} {p : ThreadPool Task} (h : AllHeld P p)
    (himp : ∀ task, P task → P' task) : AllHeld P' p :=
  fun q hq => h q fun task htask hP => hq task htask (himp task hP)

/-- Where no task of a kind is held, every task held has any property of that kind. -/
theorem AllHeld.of_none {P : Task → Prop} {q : Task → Bool} {p : ThreadPool Task}
    (hnone : held q p = 0) (hP : ∀ task, q task = false → P task) : AllHeld P p := by
  intro q' hq'
  refine held_none hnone ?_
  intro task htask
  by_contra hno
  exact hq' task htask (hP task (Bool.eq_false_iff.mpr hno))

/-- A task that comes in with the property, or takes it on, keeps it true of all. -/
theorem AllHeld.brings {P : Task → Prop} {p p' : ThreadPool Task} (h : AllHeld P p) {task : Task}
    (hP : P task) (hheld : ∀ q, held q p' ≤ held q p + weight (q task)) : AllHeld P p' := by
  intro q hq
  have hno : q task = false := Bool.eq_false_iff.mpr fun hqt => hq task hqt hP
  have hle := hheld q
  rw [hno, h q hq] at hle
  exact Nat.eq_zero_of_le_zero hle

/-! ## The task that a producer carries -/

/-- The task of a producer that has not enqueued it yet. -/
def carriedBy : ProducerPc Task → Option Task
  | .stopTest task => some task
  | .lock task => some task
  | .wait task => some task
  | .asleep task => some task
  | .woken task => some task
  | .idle => none
  | .notify => none

/-- The task that a calling thread carries. -/
def carried (p : ThreadPool Task) (j : Nat) : Option Task := p.producers[j]?.bind carriedBy

theorem carried_of {p : ThreadPool Task} {j : Nat} {pc : ProducerPc Task}
    (hpc : p.producers[j]? = some pc) : carried p j = carriedBy pc := by
  rw [carried, hpc]
  rfl

theorem carried_initial (n m j : Nat) :
    carried (ThreadPool.initial n m : ThreadPool Task) j = none := by
  show ((List.replicate m ProducerPc.idle)[j]?).bind carriedBy = none
  rw [List.getElem?_replicate]
  split <;> rfl

/-- A producer that moves carries what its new place says. -/
theorem carried_setProducer_self {p : ThreadPool Task} {j : Nat} {pc : ProducerPc Task}
    (hpc : p.producers[j]? = some pc) (pc' : ProducerPc Task) :
    carried (p.setProducer j pc') j = carriedBy pc' :=
  carried_of (getElem?_set_moved hpc)

theorem carried_setProducer_ne (p : ThreadPool Task) {i j : Nat} (hij : i ≠ j)
    (pc : ProducerPc Task) : carried (p.setProducer j pc) i = carried p i := by
  have hget : (p.setProducer j pc).producers[i]? = p.producers[i]? :=
    List.getElem?_set_ne (Ne.symm hij)
  rw [carried, carried, hget]

/-- A producer that keeps its task changes nothing. -/
theorem carried_setProducer {p : ThreadPool Task} {j : Nat} {pc pc' : ProducerPc Task}
    (hpc : p.producers[j]? = some pc) (hsame : carriedBy pc' = carriedBy pc) (i : Nat) :
    carried (p.setProducer j pc') i = carried p i := by
  by_cases hij : i = j
  · subst hij
    rw [carried_setProducer_self hpc, hsame, carried_of hpc]
  · exact carried_setProducer_ne p hij pc'

/-- What a step of the pool does to the tasks that are carried. -/
inductive Carry (p : ThreadPool Task) (a : Act Task) (p' : ThreadPool Task) : Prop where
  | keeps (hcarried : ∀ j, carried p' j = carried p j) (henqueued : p'.enqueued = p.enqueued)
  | calls {j : Nat} {task : Task} (ha : a = .addTask j task) (hafter : carried p' j = some task)
      (hother : ∀ i, i ≠ j → carried p' i = carried p i) (henqueued : p'.enqueued = p.enqueued)
  | puts {j : Nat} {task : Task} (hbefore : carried p j = some task)
      (hafter : carried p' j = none) (hother : ∀ i, i ≠ j → carried p' i = carried p i)
      (henqueued : p'.enqueued = p.enqueued ++ [task])
  | drops {j : Nat} {w : Option Nat} {task : Task} (ha : a = .producer j w)
      (hpc : p.producers[j]? = some (.stopTest task)) (hset : p.isStopThreadpool = true)
      (hafter : carried p' j = none) (hother : ∀ i, i ≠ j → carried p' i = carried p i)

/-- **WHO CARRIES WHAT**, across every step of the pool. -/
theorem carry_step {p p' : ThreadPool Task} {a : Act Task} (hs : Step p a p') :
    Carry p a p' := by
  cases hs with
  | producerCalls hpc =>
      exact .calls rfl (carried_setProducer_self hpc _)
        (fun i hij => carried_setProducer_ne p hij _) rfl
  | producerDeclined hpc hstop =>
      exact .drops rfl hpc hstop (carried_setProducer_self hpc _)
        (fun i hij => carried_setProducer_ne p hij _)
  | producerPuts hpc hin hfree hroom =>
      refine .puts ?_ (carried_setProducer_self hpc _)
        (fun i hij => carried_setProducer_ne p hij _) rfl
      rcases hin with rfl | rfl <;> exact carried_of hpc
  | producerWaits hpc hin hfree hfull hrun =>
      refine .keeps (carried_setProducer hpc ?_) rfl
      rcases hin with rfl | rfl <;> rfl
  | producerAdmitted hpc | producerSleeps hpc | producerWakesNone hpc | producerWakes hpc
  | producerSpurious hpc => exact .keeps (carried_setProducer hpc rfl) rfl
  | @workerWakes i j task hpc hsleep =>
      exact .keeps (carried_setProducer (p := p.setWorker i .lock) hsleep rfl) rfl
  | workerWaits | workerLeaves | workerTakes | workerSleeps | workerEnds | workerWakesNone
  | workerSpurious | stopCalled | stopStores | stopNotifies | stopJoins | stopClears =>
      exact .keeps (fun _ => rfl) rfl

/-- A task is carried from its `add_task` on. -/
theorem carried_step {p p' : ThreadPool Task} {a : Act Task} (hs : Step p a p') {j : Nat}
    {task : Task} (h : carried p' j = some task) :
    carried p j = some task ∨ a = .addTask j task := by
  have hbefore : ∀ i, carried p' i = none → (∀ k, k ≠ i → carried p' k = carried p k) →
      carried p j = some task := by
    intro i hnone hother
    rw [← hother j fun hji => ?_]
    · exact h
    · rw [hji, hnone] at h
      exact nomatch h
  cases carry_step hs with
  | keeps hcarried => exact Or.inl ((hcarried j).symm.trans h)
  | @calls i other ha hafter hother =>
      by_cases hji : j = i
      · subst hji
        rw [hafter] at h
        cases h
        exact Or.inr ha
      · exact Or.inl ((hother j hji).symm.trans h)
  | puts _ hafter hother => exact Or.inl (hbefore _ hafter hother)
  | drops _ _ _ hafter hother => exact Or.inl (hbefore _ hafter hother)

/-! ## Tasks in the pool -/

/-- The task waits in the queue or a worker runs it. -/
def QueuedOrRunning (p : ThreadPool Task) (task : Task) : Prop :=
  task ∈ p.taskQueue ∨ ∃ i : Nat, p.workers[i]? = some (.run task)

theorem QueuedOrRunning.held_pos {q : Task → Bool} {p : ThreadPool Task} {task : Task}
    (h : QueuedOrRunning p task) (hq : q task = true) : 0 < held q p := by
  rcases h with hmem | ⟨i, hrun⟩
  · have hcount : 0 < p.taskQueue.countP q := List.countP_pos_iff.mpr ⟨task, hmem, hq⟩
    rw [held]
    omega
  · exact EasyRpcTaskCustody.held_pos hrun hq

/-- A task comes into the queue from a producer that carries it, and to a worker from the queue. -/
theorem queuedOrRunning_step {p p' : ThreadPool Task} {a : Act Task} (hs : Step p a p')
    {task : Task} (h : QueuedOrRunning p' task) :
    QueuedOrRunning p task ∨ ∃ j, carried p j = some task := by
  have hset : ∀ {i : Nat} {pc : WorkerPc Task}, (∀ t, pc ≠ .run t) →
      (task ∈ p.taskQueue ∨ ∃ k : Nat, (p.workers.set i pc)[k]? = some (.run task)) →
      QueuedOrRunning p task ∨ ∃ j, carried p j = some task := by
    rintro i pc hpc (hqueue | ⟨k, hk⟩)
    · exact Or.inl (Or.inl hqueue)
    · rcases getElem?_set_some hk with ⟨-, heq⟩ | ⟨-, hold⟩
      · exact absurd heq (hpc task)
      · exact Or.inl (Or.inr ⟨k, hold⟩)
  cases hs with
  | workerWaits | workerLeaves | workerSleeps | workerEnds | workerWakesNone | workerWakes
  | workerSpurious | producerWakes =>
      refine hset ?_ h
      exact fun _ hrun => nomatch hrun
  | @workerTakes i w pc taken rest hpc hin hfree hqueue hrun =>
      rcases h with hrest | ⟨k, hk⟩
      · exact Or.inl (Or.inl (hqueue ▸ List.mem_cons_of_mem taken hrest))
      · rcases getElem?_set_some hk with ⟨-, heq⟩ | ⟨-, hold⟩
        · cases heq
          exact Or.inl (Or.inl (hqueue ▸ List.mem_cons_self))
        · exact Or.inl (Or.inr ⟨k, hold⟩)
  | @producerPuts j w pc put hpc hin hfree hroom =>
      rcases h with hmem | hrun
      · rcases List.mem_append.mp hmem with hold | hnew
        · exact Or.inl (Or.inl hold)
        · rw [List.mem_singleton] at hnew
          subst hnew
          refine Or.inr ⟨j, ?_⟩
          rcases hin with rfl | rfl <;> exact carried_of hpc
      · exact Or.inl (Or.inr hrun)
  | stopNotifies =>
      rcases h with hqueue | ⟨k, hk⟩
      · exact Or.inl (Or.inl hqueue)
      · exact Or.inl (Or.inr ⟨k, (notified_getElem? hk nofun).1⟩)
  | stopClears =>
      rcases h with hnone | hrun
      · exact nomatch hnone
      · exact Or.inl (Or.inr hrun)
  | producerCalls | producerDeclined | producerAdmitted | producerWaits | producerSleeps
  | producerWakesNone | producerSpurious | stopCalled | stopStores | stopJoins => exact Or.inl h

end EasyRpcTaskCustody
