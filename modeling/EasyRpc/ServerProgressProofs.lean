import EasyRpc.ServerStepProofs
import EasyRpc.ThreadPoolPotentialProofs

/-! # Progress of the server — every step is paid for, and nothing is dropped

    An accepted connection pays for all that its request brings about: the reads, the route call,
    the task and its response (`effect_pays`).  On the way the pool is one that was never stopped,
    so it lets go of a task only where the task ends (`held_kept`), and a server none of whose
    threads can move has its pool finished (`finished_of_still`). -/

namespace EasyRpcServerProgress

open Transition ThreadTable Potential EasyRpcAtimer EasyRpcWire EasyRpcConnection EasyRpcDispatch
open EasyRpcThreadPool EasyRpcThreadPoolStop EasyRpcThreadPoolProgress EasyRpcThreadPoolPotential
open EasyRpcTaskCustody EasyRpcServer

variable {ep : Easypack} {World Task : Type}

/-! ## Custody, exactly -/

section Custody

variable {p p' : ThreadPool Task}

/-- A running pool holds on to every task, unless a worker ends one. -/
theorem held_kept (q : Task → Bool) {a : EasyRpcThreadPool.Act Task} (hR : Running p)
    (hends : ∀ (i : Nat) w task, a = .worker i w → p.workers[i]? ≠ some (.run task))
    (hstop : a ≠ .stop) (hs : Step p a p') : held q p' = held q p + brought q a := by
  cases hs with
  | @workerWaits i w pc hpc hin =>
      have hmove := held_setWorker q hpc .wait
      rcases hin with rfl | rfl <;> exact hmove
  | workerLeaves hpc hin hfree hset =>
      rw [hR.flag] at hset
      cases hset
  | @workerTakes i w pc task rest hpc hin hfree hqueue =>
      have hmove := held_setWorker q hpc (.run task)
      have htake : p.taskQueue.countP q = rest.countP q + weight (q task) := by
        rw [hqueue, List.countP_cons, weight]
      have hnone : weight (runs q pc) = 0 := by rcases hin with rfl | rfl <;> rfl
      simp only [held, ThreadPool.setWorker, brought, runs] at hmove hnone ⊢
      omega
  | workerSleeps hpc => exact held_setWorker q hpc .asleep
  | workerEnds hpc => exact absurd hpc (hends _ _ _ rfl)
  | workerWakesNone hpc => exact held_setWorker q hpc .lock
  | @workerWakes i j task hpc hsleep =>
      have hw := held_setWorker q hpc .lock
      have hp := held_setProducer q (p := p.setWorker i .lock) hsleep (.woken task)
      exact (Nat.add_right_cancel hp).trans hw
  | workerSpurious hpc => exact held_setWorker q hpc .woken
  | producerCalls hpc => exact held_setProducer q hpc (.stopTest _)
  | producerDeclined hpc hset =>
      rw [hR.flag] at hset
      cases hset
  | @producerAdmitted j w task hpc =>
      exact Nat.add_right_cancel (held_setProducer q hpc (.lock task))
  | @producerWaits j w pc task hpc hin =>
      have hmove := held_setProducer q hpc (.wait task)
      rcases hin with rfl | rfl <;> exact Nat.add_right_cancel hmove
  | @producerPuts j w pc task hpc hin =>
      have hmove := held_setProducer q hpc .notify
      have hput : (p.taskQueue ++ [task]).countP q = p.taskQueue.countP q + weight (q task) := by
        rw [List.countP_append, List.countP_singleton, weight]
      have hcarried : weight (carries q pc) = weight (q task) := by
        rcases hin with rfl | rfl <;> rfl
      have hzero : weight (carries q (.notify : ProducerPc Task)) = 0 := rfl
      simp only [held, ThreadPool.setProducer, brought] at hmove ⊢
      rw [hput]
      omega
  | @producerSleeps j w task hpc =>
      exact Nat.add_right_cancel (held_setProducer q hpc (.asleep task))
  | producerWakesNone hpc => exact held_setProducer q hpc .idle
  | @producerWakes j i hpc hsleep =>
      have hp := held_setProducer q hpc .idle
      have hw := held_setWorker q (p := p.setProducer j .idle) hsleep .woken
      exact hw.trans hp
  | @producerSpurious j task hpc =>
      exact Nat.add_right_cancel (held_setProducer q hpc (.woken task))
  | stopCalled => exact absurd rfl hstop
  | stopStores hpc | stopNotifies hpc | stopJoins hpc | stopClears hpc =>
      rw [hR.stopper] at hpc
      cases hpc

/-- A finished pool holds nothing. -/
theorem held_finished (h : Finished p) (q : Task → Bool) : held q p = 0 := by
  have hproducers : p.producers.countP (carries q) = 0 := by
    refine List.countP_eq_zero.mpr fun pc hmem => ?_
    rw [h.producers pc hmem]
    exact Bool.false_ne_true
  have hworkers : p.workers.countP (runs q) = 0 := by
    refine List.countP_eq_zero.mpr fun pc hmem => ?_
    rw [h.workers pc hmem]
    exact Bool.false_ne_true
  rw [held, hproducers, hworkers, h.queue]
  rfl

/-- The pool does not look at the task that a worker runs. -/
theorem alive_swap (h : Alive p) {i : Nat} {task : Task} (hrun : p.workers[i]? = some (.run task))
    (task' : Task) : Alive (p.setWorker i (.run task')) := by
  obtain ⟨hasleep, hwoken, hpopped⟩ := worker_counts hrun (.run task')
  have hget : (p.setWorker i (.run task')).getChannel = p.getChannel :=
    WaitChannel.Channel.eq_of ⟨Nat.add_right_cancel hasleep, rfl, Nat.add_right_cancel hwoken, rfl⟩
  have hput : (p.setWorker i (.run task')).putChannel = p.putChannel :=
    WaitChannel.Channel.eq_of ⟨rfl, Nat.add_right_cancel hpopped, rfl, rfl⟩
  refine ⟨⟨h.sound.wait.setWorker i nofun, h.sound.mutex.setWorker hrun nofun _, ?_⟩,
    ⟨h.running.stopper, h.running.flag, h.running.bound⟩, hget ▸ h.get, hput ▸ h.put⟩
  intro hrunning pc hpc
  rcases List.mem_or_eq_of_mem_set hpc with hold | rfl
  · exact h.sound.noneLeft hrunning pc hold
  · rfl

end Custody

/-! ## The server's pool -/

/-- The pool was never stopped, and every connection has an I/O thread. -/
structure Lively (s : Server ep World) : Prop where
  alive : Alive s.pool
  io : ∀ (n : Nat) a, s.conns[n]? = some a → a.io < s.pool.producers.length

section Steps

variable {b : Bindings ep World} {s s' : Server ep World}

/-- A connection that moves alone keeps the server lively. -/
theorem Lively.setConn (h : Lively s) {n : Nat} {a : Accepted} (ha : s.conns[n]? = some a)
    (c : Connection) : Lively (s.setConn n a c) := by
  refine ⟨h.alive, fun m a' hm => ?_⟩
  rcases getElem?_set_some hm with ⟨-, rfl⟩ | ⟨-, hold⟩
  · exact h.io n a ha
  · exact h.io m a' hold

/-- A step of the pool other than `stop`. -/
theorem Lively.pool_step (h : Lively s) {a : EasyRpcThreadPool.Act (RequestTask ep World)}
    (ha : a ≠ .stop) {p : ThreadPool (RequestTask ep World)} (hp : s.pool.step a = some p) :
    Lively { s with pool := p } := by
  refine ⟨h.alive.step ha hp, fun n a' hn => ?_⟩
  show a'.io < p.producers.length
  rw [EasyRpcRouting.producers_length_step (step_cases hp)]
  exact h.io n a' hn

/-- The steps a pool takes by itself do not include its stop. -/
theorem not_stop_of_internal {a : EasyRpcThreadPool.Act (RequestTask ep World)}
    (h : s.internal a = true) : a ≠ .stop := by
  rintro rfl
  cases h

/-- A worker whose task has returned goes on to the notification. -/
theorem worker_ends {p : ThreadPool Task} {i : Nat} {task : Task}
    (hrun : p.workers[i]? = some (.run task)) :
    p.step (.worker i none) = some (p.setWorker i .notify) := by
  show p.workerStep i none = _
  rw [ThreadPool.workerStep, hrun]

/-- Every step of the server keeps its workers and the I/O threads of its connections. -/
theorem Lively.step (h : Lively s) {a : EasyRpcServer.Act ep World} (hs : Effect b s a s') :
    Lively s' := by
  cases hs with
  | @accepts io timeoutMilli hio =>
      refine ⟨h.alive, fun n a hn => ?_⟩
      rcases Nat.lt_or_ge n s.conns.length with hlt | hge
      · exact h.io n a ((List.getElem?_append_left hlt).symm.trans hn)
      · have hmem := List.mem_of_getElem? (List.getElem?_append_right hge ▸ hn)
        cases List.mem_singleton.mp hmem
        exact hio
  | headReads ha | headFails ha | headAccepted ha | headRefused ha | bodyReads ha | bodyFails ha
  | bodyRefused ha | returns ha | expires ha | handles ha | destructs ha => exact h.setConn ha _
  | @routes n a protocol body entry p ha hr hopen hp hb hf hadd =>
      exact (h.setConn ha _).pool_step (a := .addTask a.io ⟨entry, body, n, none⟩) nofun hadd
  | pool hint hp => exact h.pool_step (not_stop_of_internal hint) hp
  | @runs i task call hrun hnew =>
      exact ⟨alive_swap h.alive hrun _, h.io⟩
  | @ends i task a outcome result remains ec hrun hres hcaught ha =>
      exact (h.setConn ha _).pool_step (a := .worker i none) nofun (worker_ends hrun)

/-- No thread comes or goes. -/
theorem lengths_of_effect {a : EasyRpcServer.Act ep World} (hs : Effect b s a s') :
    s'.pool.workers.length = s.pool.workers.length
    ∧ s'.pool.producers.length = s.pool.producers.length := by
  have hpool : ∀ {a : EasyRpcThreadPool.Act (RequestTask ep World)}
      {p : ThreadPool (RequestTask ep World)}, s.pool.step a = some p →
      p.workers.length = s.pool.workers.length
      ∧ p.producers.length = s.pool.producers.length := fun hp =>
    ⟨EasyRpcWorkerLimit.workers_length_step hp,
      EasyRpcRouting.producers_length_step (step_cases hp)⟩
  cases hs with
  | accepts | headReads | headFails | headAccepted | headRefused | bodyReads | bodyFails
  | bodyRefused | returns | expires | handles | destructs => exact ⟨rfl, rfl⟩
  | routes ha hr hopen hp hb hf hadd => exact hpool hadd
  | pool hint hp => exact hpool hp
  | runs | ends => exact ⟨List.length_set, rfl⟩

/-! ## The potential -/

/-- What a connection has before it, with what its request brings into the pool. -/
@[simp] def readingPotential : Reading → Nat
  | .idle => 0
  | .routing => 1
  | .bodyDone _ => 13
  | .body => 14
  | .headDone _ => 15
  | .head => 16

/-- The function of the task is still to be run. -/
def unstarted (task : RequestTask ep World) : Bool := task.result.isNone

/-- How much is still to be done: in the pool, by the tasks not run yet and in the read chain of
    each connection. -/
def serverPotential (s : Server ep World) : Nat :=
  poolPotential s.pool + held unstarted s.pool
    + (s.conns.map fun a => readingPotential a.conn.reading).sum

/-- What an action brings in: a connection, a spurious wakeup, or a step of a timer or of a
    destructor. -/
def serverBrings : EasyRpcServer.Act ep World → Nat
  | .accept _ _ => 17
  | .pool a => EasyRpcThreadPoolPotential.brings a
  | .expire _ => 1
  | .timerHandler _ _ => 1
  | .destruct _ => 1
  | _ => 0

/-- A connection moves on. -/
theorem serverPotential_setConn {n : Nat} {a : Accepted} (ha : s.conns[n]? = some a)
    (c : Connection) :
    serverPotential (s.setConn n a c) + readingPotential a.conn.reading
      = serverPotential s + readingPotential c.reading := by
  have hmove := sum_move (fun a : Accepted => readingPotential a.conn.reading) ha ⟨c, a.io⟩
  simp only [serverPotential, Server.setConn] at hmove ⊢
  omega

/-- A connection that gets on in its read chain pays for what it brings into the pool. -/
theorem conn_pays {n k : Nat} {a : Accepted} (ha : s.conns[n]? = some a) {c : Connection}
    (h : readingPotential c.reading + 1 ≤ readingPotential a.conn.reading + k) :
    serverPotential (s.setConn n a c) + 1 ≤ serverPotential s + k := by
  have hmove := serverPotential_setConn ha c
  omega

/-- A step of the pool brings in a task at most. -/
theorem pool_step_pays {a : EasyRpcThreadPool.Act (RequestTask ep World)}
    {p : ThreadPool (RequestTask ep World)} (hp : s.pool.step a = some p) :
    serverPotential { s with pool := p } + 1
      ≤ serverPotential s + EasyRpcThreadPoolPotential.brings a + brought unstarted a := by
  have hpays := pool_pays s.pool a p hp
  have hheld := held_step unstarted (step_cases hp)
  simp only [serverPotential]
  omega

/-- **EVERY STEP OF THE SERVER IS PAID FOR** by the connections it has accepted. -/
theorem effect_pays {a : EasyRpcServer.Act ep World} (hs : Effect b s a s') :
    serverPotential s' + 1 ≤ serverPotential s + serverBrings a := by
  cases hs with
  | @accepts io timeoutMilli hio =>
      have hstart : (Connection.create timeoutMilli).start.reading = .head := rfl
      simp only [serverPotential, serverBrings, List.map_append, List.sum_append, List.map_cons,
        List.map_nil, List.sum_cons, List.sum_nil, hstart, readingPotential]
      omega
  | headReads ha hr | headFails ha hr | headAccepted ha hr | headRefused ha hr
  | bodyReads ha hr | bodyFails ha hr | bodyRefused ha hr | returns ha hr =>
      refine conn_pays ha ?_
      rw [hr]
      simp [Connection.readProtocolAndBody, serverBrings]
  | expires ha => exact conn_pays ha (Nat.le_refl _)
  | handles ha hready hkeeps hr => exact conn_pays ha (by rw [hr]; exact Nat.le_refl _)
  | destructs ha hr =>
      refine conn_pays ha ?_
      rw [hr, Connection.destruct, Connection.setTimer_reading, Connection.disconnect_reading,
        Connection.stopTimer_reading, hr]
      exact Nat.le_refl _
  | @routes n a protocol body entry p ha hr hopen hp hb hf hadd =>
      have hmove := serverPotential_setConn ha (a.conn.stopTimer.setReading .routing)
      have hpays := pool_step_pays (s := s.setConn n a (a.conn.stopTimer.setReading .routing))
        (a := .addTask a.io ⟨entry, body, n, none⟩) hadd
      replace hpays : serverPotential _ + 1
          ≤ serverPotential (s.setConn n a (a.conn.stopTimer.setReading .routing)) + 11 + 1 := hpays
      rw [hr] at hmove
      simp only [readingPotential, Connection.setReading_reading] at hmove
      simp only [serverBrings]
      omega
  | @pool a p hint hp =>
      have hnone : brought unstarted a = 0 := by
        cases a with
        | addTask j task => cases hint
        | worker | wakeWorker | producer | wakeProducer | stop | terminate => rfl
      have hpays := pool_step_pays hp
      rw [hnone] at hpays
      exact hpays
  | @runs i task call hrun hnew =>
      -- the worker stays where it is, but its function has been run
      have hpool := poolPotential_setWorker hrun
        (.run { task with result := some (task.entry.outcome task.body call) })
      have hheld := held_setWorker unstarted hrun
        (.run { task with result := some (task.entry.outcome task.body call) })
      have hold : weight (runs unstarted (.run task)) = 1 := by
        simp only [runs, unstarted, hnew]
        rfl
      have hdone : weight (runs unstarted
          (.run { task with result := some (task.entry.outcome task.body call) })) = 0 := rfl
      simp only [serverPotential, workerPotential] at hpool ⊢
      omega
  | @ends i task a outcome result remains ec hrun hres hcaught ha =>
      have hmove := serverPotential_setConn ha (a.conn.respond result remains ec)
      have hpays := pool_step_pays (s := s.setConn task.conn a (a.conn.respond result remains ec))
        (a := .worker i none) (worker_ends hrun)
      replace hpays : serverPotential
          { s.setConn task.conn a (a.conn.respond result remains ec) with
            pool := s.pool.setWorker i .notify } + 1
          ≤ serverPotential (s.setConn task.conn a (a.conn.respond result remains ec)) := hpays
      rw [(respond_request a.conn result remains ec).1] at hmove
      exact Nat.le_trans hpays (Nat.le_of_eq (Nat.add_right_cancel hmove))

/-! ## A server at rest -/

/-- The steps that the server's threads take by themselves; a read is aborted where its socket is
    closed. -/
def ownAct (s : Server ep World) : EasyRpcServer.Act ep World → Bool
  | .headRead n none => s.conns[n]?.any fun a => !a.conn.isOpen
  | .bodyRead n none => s.conns[n]?.any fun a => !a.conn.isOpen
  | .headHandler _ => true
  | .bodyHandler _ => true
  | .routeReturns _ => true
  | .pool a => isOwn a
  | .runHandler _ _ => true
  | .respond _ _ ec => ec.isNone
  | _ => false

/-- What the server does by itself brings in no new work. -/
theorem ownAct_brings {a : EasyRpcServer.Act ep World} (ha : ownAct s a = true) :
    serverBrings a = 0 := by
  cases a with
  | pool a => exact (own_brings (q := fun _ => true) ha).1
  | accept | expire | timerHandler | destruct => cases ha
  | headRead | headHandler | bodyRead | bodyHandler | routeReturns | runHandler | respond => rfl

/-- A pool whose workers run no task, and cannot move otherwise, has finished. -/
theorem finished_of_still (h : Lively s) (hsome : s.pool.workers ≠ [])
    (hruns : ∀ (i : Nat) task, s.pool.workers[i]? ≠ some (.run task))
    (hrests : ∀ a, isOwn a = true → s.poolStep a = none) : Finished s.pool := by
  have hpool : Rests (fun _ => isOwn) poolSystem s.pool := by
    intro a ha
    have hint : s.internal a = true := by
      cases a with
      | worker i w =>
          cases hi : s.pool.workers[i]? with
          | none => simp only [Server.internal, hi]
          | some pc =>
              cases pc with
              | run task => exact absurd hi (hruns i task)
              | lock | wait | asleep | woken | notify | done => simp only [Server.internal, hi]
      | producer => rfl
      | wakeWorker | addTask | wakeProducer | stop | terminate => cases ha
    have hnone := hrests a ha
    rw [Server.poolStep, if_pos hint, Option.map_eq_none_iff] at hnone
    exact hnone
  exact (dormant_of_rests h.alive hpool).finished h.alive hsome

/-- With the pool finished every I/O thread comes back from its route call. -/
theorem ioFree_of_finished (h : Finished s.pool)
    (hreturned : ∀ (n : Nat) a, s.conns[n]? = some a → a.conn.reading ≠ .routing) {io : Nat}
    (hio : io < s.pool.producers.length) : s.ioFree io = true := by
  have hidle : s.pool.producers[io]? = some .idle := by
    rw [List.getElem?_eq_getElem hio]
    exact congrArg some (h.producers _ (List.getElem_mem hio))
  have hconns : (s.conns.all fun a => a.io != io || a.conn.reading != .routing) = true := by
    refine List.all_eq_true.mpr fun a hmem => ?_
    obtain ⟨n, hn⟩ := List.mem_iff_getElem?.mp hmem
    rw [Bool.or_eq_true, bne_iff_ne, bne_iff_ne]
    exact Or.inr (hreturned n a hn)
  rw [Server.ioFree, hidle, hconns]
  rfl

end Steps

end EasyRpcServerProgress
