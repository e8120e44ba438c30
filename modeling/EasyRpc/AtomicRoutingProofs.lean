import EasyRpc.RoutingProofs

/-! # Routing at once — a call in steps and an atomic one

    `EasyRpcBinding` takes a call of `route` as one step: look up, and put the task into the queue.
    In the code the look-up comes first, then the steps of `add_task`, and other threads bind and
    unbind in between.

    The two models agree in every run in which nobody changes an entry under a task on its way to
    the queue or in it (`routes_atomically`): the steps of a call do nothing the atomic call does
    not, and its moment is the push. -/

namespace EasyRpcAtomicRouting

open Transition ReferenceMap EasyRpcWire EasyRpcThreadPool EasyRpcThreadPoolProgress
open EasyRpcTaskCustody
open EasyRpcBinding (Table RouteTask)
open EasyRpcRouting (PoolTask RouteCall)

variable {Fn Conn Task : Type}

/-- What the steps of a pool that is not stopped do to the queue: a producer puts what it carries
    at the back, and a worker takes the front. -/
inductive QueueStep (p p' : ThreadPool Task) : Prop where
  | keeps (hqueue : p'.taskQueue = p.taskQueue) (hpopped : p'.popped = p.popped)
  | puts {j : Nat} {task : Task} (hcarried : carried p j = some task)
      (hroom : p.taskQueue.length ≠ maxTaskQuqueSize)
      (hqueue : p'.taskQueue = p.taskQueue ++ [task]) (hpopped : p'.popped = p.popped)
  | takes {task : Task} {rest : List Task} (hfront : p.taskQueue = task :: rest)
      (hqueue : p'.taskQueue = rest) (hpopped : p'.popped = p.popped ++ [task])

/-- Nobody has called `stop`. -/
def Unstopped (p : ThreadPool Task) : Prop :=
  p.stopper = .idle ∧ p.isStopThreadpool = false

/-- What a pool step does to the queue, as long as nobody stops the pool. -/
theorem queue_step {p p' : ThreadPool Task} {a : Act Task} (h : Unstopped p) (ha : a ≠ .stop)
    (hs : Step p a p') : Unstopped p' ∧ QueueStep p p' := by
  obtain ⟨hidle, hrun⟩ := h
  cases hs with
  | stopCalled => exact absurd rfl ha
  | stopStores hpc | stopNotifies hpc | stopJoins hpc | stopClears hpc =>
      rw [hidle] at hpc
      cases hpc
  | workerTakes hpc hin hfree hqueue => exact ⟨⟨hidle, hrun⟩, .takes hqueue rfl rfl⟩
  | @producerPuts j w pc task hpc hin hfree hroom =>
      have hcarried : carried p j = some task := by
        rcases hin with rfl | rfl <;> exact carried_of hpc
      exact ⟨⟨hidle, hrun⟩, .puts hcarried (hroom hrun) rfl rfl⟩
  | workerWaits | workerLeaves | workerSleeps | workerEnds | workerWakesNone | workerWakes
  | workerSpurious | producerCalls | producerDeclined | producerAdmitted | producerWaits
  | producerSleeps | producerWakesNone | producerWakes | producerSpurious =>
      exact ⟨⟨hidle, hrun⟩, .keeps rfl rfl⟩

/-- A task on its way names the entry: it is carried to the queue or waits in it. -/
def Named (r : EasyRpcRouting.Router Fn Conn) (t : Table) (protocol : Str) : Prop :=
  ∃ task, (task ∈ r.threadpool.taskQueue ∨ ∃ j, carried r.threadpool j = some task)
    ∧ task.task.table = t ∧ task.task.func.key = protocol

/-- The binding operation changes the entry of a task on its way. -/
def Changes (r : EasyRpcRouting.Router Fn Conn) : EasyRpcRouting.Act Fn Conn → Prop
  | .bind protocol func =>
      Named r .invokerMap protocol
        ∧ ∀ node, (r.maps .invokerMap).find protocol = some node → node.value ≠ func
  | .bindRaw protocol func =>
      Named r .invokerRawMap protocol
        ∧ ∀ node, (r.maps .invokerRawMap).find protocol = some node → node.value ≠ func
  | .unbind protocol => Named r .invokerMap protocol
  | .unbindRaw protocol => Named r .invokerRawMap protocol
  | _ => False

/-- The pool is not stopped, and no entry is changed under a task on its way. -/
def LeavesEntries (r : EasyRpcRouting.Router Fn Conn) (a : EasyRpcRouting.Act Fn Conn) : Prop :=
  a ≠ .pool .stop ∧ ¬ Changes r a

/-- The router in steps and the atomic one: the same maps, the same queue, the same tasks taken;
    and what a thread still carries, its look-up would find again. -/
structure Atomic (r : EasyRpcRouting.Router Fn Conn) (t : EasyRpcBinding.Router Fn Conn) :
    Prop where
  going : Unstopped r.threadpool
  maps : ∀ table, t.map table = r.maps table
  queue : t.taskQueue = r.threadpool.taskQueue.map PoolTask.task
  ran : t.ran.map Prod.fst = r.threadpool.popped.map PoolTask.task
  found : ∀ j task, carried r.threadpool j = some task →
    (r.maps task.task.table).deref task.task.func = some task.task.routed

variable {r : EasyRpcRouting.Router Fn Conn} {t : EasyRpcBinding.Router Fn Conn}

/-- The maps of the two routers stay the same when one entry of each is replaced. -/
theorem maps_setMap (h : ∀ table, t.map table = r.maps table) (table : Table) (m : RefMap Str Fn)
    (table' : Table) :
    (t.setMap table m).map table' = Function.update r.maps table m table' := by
  by_cases heq : table' = table
  · subst heq
    rw [EasyRpcBinding.Router.setMap_map_self, Function.update_self]
  · rw [EasyRpcBinding.Router.setMap_map_ne t heq, Function.update_of_ne heq]
    exact h table'

/-- An entry queued in the atomic router is on its way in the other. -/
theorem Atomic.named (h : Atomic r t) {table : Table} {protocol : Str}
    (hqueued : EasyRpcBinding.Queued t table protocol) : Named r table protocol := by
  obtain ⟨routed, hmem, htable, hkey⟩ := hqueued
  rw [h.queue] at hmem
  obtain ⟨task, hwaits, rfl⟩ := List.mem_map.mp hmem
  exact ⟨task, Or.inl hwaits, htable, hkey⟩

/-- Binding in one router is binding in the other, and disturbs neither. -/
theorem Atomic.bindIn (h : Atomic r t) {table : Table} {protocol : Str} {func : Fn}
    (hno : ¬ (Named r table protocol
      ∧ ∀ node, (r.maps table).find protocol = some node → node.value ≠ func)) :
    ¬ EasyRpcBinding.Rebinds t table protocol func
    ∧ Atomic (r.bindIn table protocol func) (t.bindIn table protocol func) := by
  constructor
  · rintro ⟨hqueued, hother⟩
    refine hno ⟨h.named hqueued, ?_⟩
    rw [← h.maps]
    exact hother
  · refine ⟨h.going, ?_, ?_, ?_, ?_⟩
    · rw [EasyRpcBinding.Router.bindIn, h.maps]
      exact maps_setMap h.maps table _
    · rw [EasyRpcBinding.Router.bindIn, EasyRpcBinding.Router.setMap_taskQueue]
      exact h.queue
    · rw [EasyRpcBinding.Router.bindIn, EasyRpcBinding.Router.setMap_ran]
      exact h.ran
    · intro j task hc
      have hfound := h.found j task hc
      show (Function.update r.maps table _ task.task.table).deref task.task.func = _
      by_cases htable : task.task.table = table
      · subst htable
        rw [Function.update_self]
        by_cases hkey : task.task.func.key = protocol
        · subst hkey
          -- the entry is on its way, so it is bound again to what it holds
          have hnode := RefMap.find_of_deref hfound
          have hsame : task.task.routed = func := by
            by_contra hne
            refine hno ⟨⟨task, Or.inr ⟨j, hc⟩, rfl, rfl⟩, ?_⟩
            intro node hfind
            rw [hnode] at hfind
            cases hfind
            exact hne
          rw [← hsame]
          exact RefMap.deref_assign_self hfound _
        · rw [RefMap.deref_assign_ne _ hkey]
          exact hfound
      · rw [Function.update_of_ne htable]
        exact hfound

theorem Atomic.unbindIn (h : Atomic r t) {table : Table} {protocol : Str}
    (hno : ¬ Named r table protocol) :
    ¬ EasyRpcBinding.Queued t table protocol
    ∧ Atomic (r.unbindIn table protocol) (t.unbindIn table protocol) := by
  refine ⟨fun hqueued => hno (h.named hqueued), h.going, ?_, ?_, ?_, ?_⟩
  · rw [EasyRpcBinding.Router.unbindIn, h.maps]
    exact maps_setMap h.maps table _
  · rw [EasyRpcBinding.Router.unbindIn, EasyRpcBinding.Router.setMap_taskQueue]
    exact h.queue
  · rw [EasyRpcBinding.Router.unbindIn, EasyRpcBinding.Router.setMap_ran]
    exact h.ran
  · intro j task hc
    have hfound := h.found j task hc
    show (Function.update r.maps table _ task.task.table).deref task.task.func = _
    by_cases htable : task.task.table = table
    · subst htable
      rw [Function.update_self, RefMap.deref_erase_ne]
      · exact hfound
      · rintro rfl
        exact hno ⟨task, Or.inr ⟨j, hc⟩, rfl, rfl⟩
    · rw [Function.update_of_ne htable]
      exact hfound

/-- A mode that selects the table. -/
def modeOf : Table → CallMode
  | .invokerMap => .nonRaw
  | .invokerRawMap => .raw

/-- The atomic call enqueues the task at once. -/
theorem route_found {table : Table} {protocol : Str} {node : Node Fn}
    (hfind : (t.map table).find protocol = some node)
    (hroom : t.taskQueue.length ≠ maxTaskQuqueSize) (body : Str) (conn : Conn) :
    t.step (.route protocol body (modeOf table) conn) = some { t with
      taskQueue := t.taskQueue ++ [⟨table, ⟨protocol, node.id⟩, body, conn, node.value⟩] } := by
  have hin : t.routeIn table protocol body conn = some ({ t with taskQueue :=
      t.taskQueue ++ [⟨table, ⟨protocol, node.id⟩, body, conn, node.value⟩] }, true) := by
    rw [EasyRpcBinding.Router.routeIn, hfind]
    simp only [EasyRpcBinding.Router.addTask, beq_eq_false_iff_ne.mpr hroom, Bool.false_eq_true,
      if_false, Option.map_some]
  have hroute : t.route protocol body (modeOf table) conn
      = t.routeIn table protocol body conn := by
    cases table <;> rfl
  show (t.route protocol body (modeOf table) conn).map Prod.fst = _
  rw [hroute, hin]
  rfl

/-- **ONE STEP OF THE POOL**: what is put into the queue is a call of the atomic router, and what a
    worker takes is its `work`. -/
theorem Atomic.pool (h : Atomic r t) {a : EasyRpcThreadPool.Act (PoolTask Fn Conn)}
    {p : ThreadPool (PoolTask Fn Conn)} (hadd : isAddTask a = false) (ha : a ≠ .stop)
    (hs : Step r.threadpool a p) :
    ∃ t', (t' = t ∨ ∃ c, ¬ EasyRpcBinding.Disturbs t c ∧ t.step c = some t')
      ∧ Atomic { r with threadpool := p } t' := by
  obtain ⟨hgoing, hqueue⟩ := queue_step h.going ha hs
  have hfound : ∀ j task, carried p j = some task →
      (r.maps task.task.table).deref task.task.func = some task.task.routed := by
    intro j task hc
    rcases carried_step hs hc with hold | rfl
    · exact h.found j task hold
    · cases hadd
  cases hqueue with
  | keeps hsame hpopped =>
      refine ⟨t, Or.inl rfl, hgoing, h.maps, ?_, ?_, hfound⟩
      · exact h.queue.trans (congrArg (List.map PoolTask.task) hsame.symm)
      · exact h.ran.trans (congrArg (List.map PoolTask.task) hpopped.symm)
  | @puts j task hcarried hroom hput hpopped =>
      have hfind := RefMap.find_of_deref (h.found j task hcarried)
      rw [← h.maps] at hfind
      have hlength : t.taskQueue.length ≠ maxTaskQuqueSize := by
        rw [h.queue, List.length_map]
        exact hroom
      refine ⟨_, Or.inr ⟨_, id, route_found hfind hlength task.task.body task.task.conn⟩,
        hgoing, h.maps, ?_, ?_, hfound⟩
      · show t.taskQueue ++ [task.task] = p.taskQueue.map PoolTask.task
        rw [hput, List.map_append, ← h.queue]
        rfl
      · exact h.ran.trans (congrArg (List.map PoolTask.task) hpopped.symm)
  | @takes task rest hfront hrest hpopped =>
      have htaken : t.taskQueue = task.task :: rest.map PoolTask.task := by
        rw [h.queue, hfront]
        rfl
      have hwork : t.step .work = some { t with
          taskQueue := rest.map PoolTask.task
          ran := t.ran ++ [(task.task, t.deref task.task)] } := by
        show t.work = _
        rw [EasyRpcBinding.Router.work, htaken]
      refine ⟨_, Or.inr ⟨_, id, hwork⟩, hgoing, h.maps, ?_, ?_, hfound⟩
      · show rest.map PoolTask.task = p.taskQueue.map PoolTask.task
        rw [hrest]
      · show (t.ran ++ [(task.task, t.deref task.task)]).map Prod.fst = p.popped.map PoolTask.task
        rw [hpopped, List.map_append, List.map_append, h.ran]
        rfl

/-- What `route` leaves up to the call of `add_task`: the maps, and a task for the entry found. -/
inductive Routed (r : EasyRpcRouting.Router Fn Conn) (call : RouteCall Conn)
    (r' : EasyRpcRouting.Router Fn Conn) : Prop where
  | refused (hmaps : r'.maps = r.maps) (hpool : r'.threadpool = r.threadpool)
  | admitted {table : Table} {node : Node Fn} (hmaps : r'.maps = r.maps)
      (hfind : (r.maps table).find call.protocol = some node)
      (hidle : r.threadpool.producers[call.id.thread]? = some .idle)
      (hpool : r'.threadpool = r.threadpool.setProducer call.id.thread (.stopTest ⟨call.id,
        table, ⟨call.protocol, node.id⟩, call.body, call.conn, node.value⟩))

/-- What `route` does: it answers at once, or its task goes to the pool. -/
theorem route_cases {r' : EasyRpcRouting.Router Fn Conn} {call : RouteCall Conn}
    (hs : r.route call = some r') : Routed r call r' := by
  have hin : ∀ table, r.routeIn table call = some r' → Routed r call r' := by
    intro table hin
    rcases EasyRpcRouting.routeIn_cases hin with ⟨-, rfl⟩ | ⟨node, hfind, hidle, rfl⟩
    · exact .refused rfl rfl
    · exact .admitted rfl hfind hidle rfl
  rw [EasyRpcRouting.Router.route] at hs
  split at hs
  · exact hin _ hs
  · split at hs
    · exact hin _ hs
    · cases hs
      exact .refused rfl rfl

/-- The lookup of a call is no step of the router that routes in one. -/
theorem Atomic.route (h : Atomic r t) {r' : EasyRpcRouting.Router Fn Conn}
    {call : RouteCall Conn} (hs : r.route call = some r') : Atomic r' t := by
  have hkeeps : ∀ {p : ThreadPool (PoolTask Fn Conn)}, r'.maps = r.maps → r'.threadpool = p →
      Unstopped p → p.taskQueue = r.threadpool.taskQueue → p.popped = r.threadpool.popped →
      (∀ j task, carried p j = some task →
        (r.maps task.task.table).deref task.task.func = some task.task.routed) →
      Atomic r' t := by
    rintro p hmaps rfl hgoing hqueue hpopped hfound
    refine ⟨hgoing, ?_, ?_, ?_, ?_⟩
    · rw [hmaps]
      exact h.maps
    · rw [hqueue]
      exact h.queue
    · rw [hpopped]
      exact h.ran
    · rw [hmaps]
      exact hfound
  cases route_cases hs with
  | refused hmaps hpool => exact hkeeps hmaps hpool h.going rfl rfl h.found
  | admitted hmaps hfind hidle hpool =>
      refine hkeeps hmaps hpool h.going rfl rfl ?_
      intro j task hc
      by_cases hj : j = call.id.thread
      · subst hj
        rw [carried_setProducer_self hidle] at hc
        cases hc
        exact RefMap.deref_of_find hfind
      · rw [carried_setProducer_ne _ hj] at hc
        exact h.found j task hc

/-- **STEP** of the router in steps. -/
theorem Atomic.step (h : Atomic r t) {a : EasyRpcRouting.Act Fn Conn}
    {r' : EasyRpcRouting.Router Fn Conn} (ha : LeavesEntries r a) (hs : r.step a = some r') :
    ∃ t', (t' = t ∨ ∃ c, ¬ EasyRpcBinding.Disturbs t c ∧ t.step c = some t') ∧ Atomic r' t' := by
  obtain ⟨hstop, hno⟩ := ha
  cases a with
  | bind protocol func =>
      cases hs
      obtain ⟨hundisturbed, hbound⟩ := h.bindIn hno
      exact ⟨_, Or.inr ⟨.bind protocol func, hundisturbed, rfl⟩, hbound⟩
  | bindRaw protocol func =>
      cases hs
      obtain ⟨hundisturbed, hbound⟩ := h.bindIn hno
      exact ⟨_, Or.inr ⟨.bindRaw protocol func, hundisturbed, rfl⟩, hbound⟩
  | unbind protocol =>
      cases hs
      obtain ⟨hundisturbed, hunbound⟩ := h.unbindIn hno
      exact ⟨_, Or.inr ⟨.unbind protocol, hundisturbed, rfl⟩, hunbound⟩
  | unbindRaw protocol =>
      cases hs
      obtain ⟨hundisturbed, hunbound⟩ := h.unbindIn hno
      exact ⟨_, Or.inr ⟨.unbindRaw protocol, hundisturbed, rfl⟩, hunbound⟩
  | multithreaded num =>
      cases hs
      refine ⟨t, Or.inl rfl, ?_⟩
      rw [EasyRpcRouting.Router.multithreaded]
      split
      · rename_i p hp
        rw [EasyRpcRouting.initThreadNum_ok hp]
        exact ⟨h.going, h.maps, h.queue, h.ran, h.found⟩
      · exact h
  | pool a =>
      obtain ⟨hadd, hs⟩ := Option.ite_none_left_eq_some.mp hs
      obtain ⟨p, hp, rfl⟩ := Option.map_eq_some_iff.mp hs
      exact h.pool (Bool.eq_false_iff.mpr hadd) (fun heq => hstop (congrArg _ heq))
        (step_cases hp)
  | route j protocol body mode conn =>
      obtain ⟨-, hs⟩ := Option.ite_none_left_eq_some.mp hs
      exact ⟨t, Or.inl rfl, h.route hs⟩
  | returnTrue j =>
      obtain ⟨call, -, -, rfl⟩ := EasyRpcRouting.returnTrue_cases hs
      exact ⟨t, Or.inl rfl, h.going, h.maps, h.queue, h.ran, h.found⟩

/-- **ROUTING AT ONCE**: as long as nobody stops the pool or changes an entry under a task on its
    way, every run of the router in steps is one of the atomic router, undisturbed; so every task
    taken so far was taken under a reference to the function that it was routed to. -/
theorem routes_atomically
    (h : Reaches (EasyRpcRouting.routerSystem Fn Conn) LeavesEntries r) :
    ∃ t : EasyRpcBinding.Router Fn Conn,
      Reaches (EasyRpcBinding.routerSystem Fn Conn) (fun t c => ¬ EasyRpcBinding.Disturbs t c) t
      ∧ Atomic r t ∧ EasyRpcBinding.RunsRouted t := by
  have hforward : ∃ t : EasyRpcBinding.Router Fn Conn,
      Reaches (EasyRpcBinding.routerSystem Fn Conn) (fun t c => ¬ EasyRpcBinding.Disturbs t c) t
      ∧ Atomic r t := by
    refine Reaches.forward ?_ ?_ h
    · rintro r ⟨m, rfl⟩
      refine ⟨.empty, rfl, ⟨rfl, rfl⟩, ?_, rfl, rfl, ?_⟩
      · intro table
        cases table <;> rfl
      · intro j task hc
        rw [EasyRpcRouting.Router.initial, carried_initial 0 m j] at hc
        cases hc
    · intro r a r' t ht hatomic ha hs
      obtain ⟨t', rfl | ⟨c, hundisturbed, hstep⟩, hatomic'⟩ := hatomic.step ha hs
      · exact ⟨t', ht, hatomic'⟩
      · exact ⟨t', ht.step hundisturbed hstep, hatomic'⟩
  obtain ⟨t, ht, hatomic⟩ := hforward
  exact ⟨t, ht, hatomic, (EasyRpcBinding.faithful_of_reaches ht).ran⟩

end EasyRpcAtomicRouting
