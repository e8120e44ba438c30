import Mathlib.Logic.Function.Basic
import EasyRpc.RouterBindingProofs
import EasyRpc.TaskCustodyProofs
import EasyRpc.ThreadPoolProgressProofs

/-! # Routing — what the answer of `route` says

    `route` looks a protocol up in the map of its mode and hands the task to `add_task` of the
    pool, which returns nothing: after the stop flag is set it drops the task, and `route` goes on
    to its `return true`.  The I/O threads route at the same time, other threads bind and unbind,
    and `multithreaded` and `stop` come whenever they like, so a call of `route` is two steps of
    its own — the look-up and the return — with the steps of `add_task` in between.

    **`route` says whether a task was enqueued** exactly in the runs in which no call that has
    found its entry meets the stop flag at the test of `add_task` (`routed_exactly`). -/

namespace EasyRpcRouting

open Transition ReferenceMap ThreadTable EasyRpcWire EasyRpcThreadPool EasyRpcThreadPoolStop
open EasyRpcThreadPoolProgress EasyRpcTaskCustody EasyRpcBinding

variable {Fn Conn Task : Type}

/-- `max_thread_size`: more threads than this, or none, is an argument error. -/
def maxThreadSize : Nat := 30

/-- `thread_pool::init_thread_num`: the threads start at the top of `run_task`. -/
def initThreadNum (p : ThreadPool Task) (num : Nat) : Except String (ThreadPool Task) :=
  if num ≤ 0 ∨ num > maxThreadSize then
    .error ("Number of threads in the range of 1 to " ++ toString maxThreadSize)
  else
    .ok { p with workers := p.workers ++ List.replicate num .lock }

/-- What `init_thread_num` does when it does not throw: it adds the workers. -/
theorem initThreadNum_ok {p q : ThreadPool Task} {num : Nat} (h : initThreadNum p num = .ok q) :
    q = { p with workers := p.workers ++ List.replicate num .lock } := by
  rw [initThreadNum] at h
  obtain ⟨-, heq⟩ := (ite_eq_iff.mp h).resolve_left fun h => nomatch h.2
  exact (Except.ok.inj heq).symm

/-- A call of `route`: the I/O thread that makes it and how many calls it has made before.  No
    step looks at it. -/
structure CallId where
  thread : Nat
  number : Nat
  deriving DecidableEq

/-- A binding operation: `bind` and `bind_raw` bind, `unbind` and `unbind_raw` do not. -/
structure BindingOp where
  table : Table
  protocol : Str
  binds : Bool

/-- The last binding operation on the protocol in the table is a bind; the newest one is first. -/
def lastBinds : List BindingOp → Table → Str → Bool
  | [], _, _ => false
  | op :: earlier, t, protocol =>
      if op.table = t ∧ op.protocol = protocol then op.binds else lastBinds earlier t protocol

/-- A call of `route`, with the binding operations that it comes after. -/
structure RouteCall (Conn : Type) where
  id : CallId
  protocol : Str
  body : Str
  mode : CallMode
  conn : Conn
  bindings : List BindingOp

/-- A routed task as the pool holds it, marked with the call that made it. -/
structure PoolTask (Fn Conn : Type) where
  id : CallId
  task : RouteTask Fn Conn

/-- The router.  `bindings`, `count` and `returned` record what has happened. -/
structure Router (Fn Conn : Type) where
  maps : Table → RefMap Str Fn
  threadpool : ThreadPool (PoolTask Fn Conn)
  log : List String
  -- the call that an I/O thread is in, between its look-up and its return
  calls : Nat → Option (RouteCall Conn)
  bindings : List BindingOp
  -- the number of calls that a thread has returned from
  count : Nat → Nat
  returned : List (RouteCall Conn × Bool)

namespace Router

variable (r : Router Fn Conn)

/-- `map[protocol] = func`, for each of the forms of `bind` and `bind_raw`. -/
def bindIn (t : Table) (protocol : Str) (func : Fn) : Router Fn Conn :=
  { r with
    maps := Function.update r.maps t ((r.maps t).assign protocol func)
    bindings := ⟨t, protocol, true⟩ :: r.bindings }

/-- `unbind` and `unbind_raw`, recorded in the history of the bindings. -/
def unbindIn (t : Table) (protocol : Str) : Router Fn Conn :=
  { r with
    maps := Function.update r.maps t ((r.maps t).erase protocol)
    bindings := ⟨t, protocol, false⟩ :: r.bindings }

/-- `is_bind` and `is_bind_raw`. -/
def isBindIn (t : Table) (protocol : Str) : Bool := ((r.maps t).find protocol).isSome

/-- `router::bind`. -/
def bind (protocol : Str) (func : Fn) : Router Fn Conn := r.bindIn .invokerMap protocol func

/-- `router::unbind`. -/
def unbind (protocol : Str) : Router Fn Conn := r.unbindIn .invokerMap protocol

/-- `router::is_bind`. -/
def isBind (protocol : Str) : Bool := r.isBindIn .invokerMap protocol

/-- `router::bind_raw`. -/
def bindRaw (protocol : Str) (func : Fn) : Router Fn Conn := r.bindIn .invokerRawMap protocol func

/-- `router::unbind_raw`. -/
def unbindRaw (protocol : Str) : Router Fn Conn := r.unbindIn .invokerRawMap protocol

/-- `router::is_bind_raw`. -/
def isBindRaw (protocol : Str) : Bool := r.isBindIn .invokerRawMap protocol

/-- `multithreaded`: out of range it throws, and nothing changes. -/
def multithreaded (num : Nat) : Router Fn Conn :=
  match initThreadNum r.threadpool num with
  | .ok p => { r with threadpool := p }
  | .error _ => r

/-- The `return` of a call. -/
def returns (call : RouteCall Conn) (ok : Bool) : Router Fn Conn :=
  { r with
    calls := Function.update r.calls call.id.thread none
    count := Function.update r.count call.id.thread (call.id.number + 1)
    returned := r.returned ++ [(call, ok)] }

/-- The two branches of `route` for a valid mode, up to the call of `add_task`. -/
def routeIn (t : Table) (call : RouteCall Conn) : Option (Router Fn Conn) :=
  match (r.maps t).find call.protocol with
  | none => some (r.returns call false)
  | some node =>
      let task : RouteTask Fn Conn :=
        ⟨t, ⟨call.protocol, node.id⟩, call.body, call.conn, node.value⟩
      (r.threadpool.step (.addTask call.id.thread ⟨call.id, task⟩)).map fun p =>
        { r with
          threadpool := p
          calls := Function.update r.calls call.id.thread (some call) }

/-- `route`, up to the call of `add_task`. -/
def route (call : RouteCall Conn) : Option (Router Fn Conn) :=
  if call.mode = .nonRaw then r.routeIn .invokerMap call
  else if call.mode = .raw then r.routeIn .invokerRawMap call
  else
    some { r.returns call false with
      log := r.log ++ ["Invaild call mode: " ++ toString call.mode.value.toNat] }

end Router

/-- The calls made on a router: binding, adding workers, routing in three steps, and the pool. -/
inductive Act (Fn Conn : Type) where
  | bind (protocol : Str) (func : Fn)
  | bindRaw (protocol : Str) (func : Fn)
  | unbind (protocol : Str)
  | unbindRaw (protocol : Str)
  | multithreaded (num : Nat)
  -- a step of the pool, the first call of `stop` among them
  | pool (a : EasyRpcThreadPool.Act (PoolTask Fn Conn))
  -- I/O thread `j` calls `route`
  | route (j : Nat) (protocol body : Str) (mode : CallMode) (conn : Conn)
  -- `add_task` is over, and I/O thread `j` comes to `return true`
  | returnTrue (j : Nat)

/-- One step of the router. A call of `route` starts, its task goes through the pool's `add_task`,
    and it returns. -/
def Router.step (r : Router Fn Conn) : Act Fn Conn → Option (Router Fn Conn)
  | .bind protocol func => some (r.bind protocol func)
  | .bindRaw protocol func => some (r.bindRaw protocol func)
  | .unbind protocol => some (r.unbind protocol)
  | .unbindRaw protocol => some (r.unbindRaw protocol)
  | .multithreaded num => some (r.multithreaded num)
  | .pool a =>
      -- only `route` calls `add_task`
      if isAddTask a then none
      else (r.threadpool.step a).map fun p => { r with threadpool := p }
  | .route j protocol body mode conn =>
      if (r.calls j).isSome then none
      else r.route ⟨⟨j, r.count j⟩, protocol, body, mode, conn, r.bindings⟩
  | .returnTrue j =>
      match r.calls j, r.threadpool.producers[j]? with
      | some call, some .idle => some (r.returns call true)
      | _, _ => none

/-- Nothing bound, no worker yet, and `m` I/O threads. -/
def Router.initial (m : Nat) : Router Fn Conn where
  maps _ := .empty
  threadpool := .initial 0 m
  log := []
  calls _ := none
  bindings := []
  count _ := 0
  returned := []

/-- A router with its pool, from no worker and any number of calling threads on. -/
def routerSystem (Fn Conn : Type) : System (Router Fn Conn) (Act Fn Conn) where
  start r := ∃ m, r = .initial m
  step := Router.step

/-! ## What the answer should say -/

/-- The table that a mode selects. -/
def tableOf (mode : CallMode) : Option Table :=
  if mode = .nonRaw then some .invokerMap
  else if mode = .raw then some .invokerRawMap
  else none

/-- The protocol of the call was bound, in the table of its mode, when the call was made. -/
def RouteCall.Bound (call : RouteCall Conn) : Prop :=
  ∃ t, tableOf call.mode = some t ∧ lastBinds call.bindings t call.protocol = true

/-- The task carries what the call was given, for the entry that it names. -/
structure PoolTask.Serves (task : PoolTask Fn Conn) (call : RouteCall Conn) : Prop where
  table : tableOf call.mode = some task.task.table
  func : task.task.func.key = call.protocol
  body : task.task.body = call.body
  conn : task.task.conn = call.conn

/-- The tasks that a call has appended to the queue. -/
def appended (p : ThreadPool (PoolTask Fn Conn)) (id : CallId) : List (PoolTask Fn Conn) :=
  p.enqueued.filter fun task => task.id = id

/-- The answer of a call: `true` exactly for a bound protocol, and then the call has appended one
    task, with its body and connection; otherwise it has appended none. -/
structure Exact (p : ThreadPool (PoolTask Fn Conn)) (call : RouteCall Conn) (ok : Bool) :
    Prop where
  bound : ok = true ↔ call.Bound
  accepted : ok = true → ∃ task, appended p call.id = [task] ∧ task.Serves call
  refused : ok = false → appended p call.id = []

/-- The condition: a call that has found its entry does not meet the stop flag at the test of
    `add_task`. -/
def TestsRunningPool (r : Router Fn Conn) (a : Act Fn Conn) : Prop :=
  ∀ j w task, a = .pool (.producer j w) → r.threadpool.producers[j]? = some (.stopTest task) →
    r.threadpool.isStopThreadpool = false

/-! ## The tables follow the binding operations -/

/-- An entry exists exactly where the last binding operation is a bind. -/
def Follows (maps : Table → RefMap Str Fn) (bindings : List BindingOp) : Prop :=
  ∀ t protocol, ((maps t).find protocol).isSome = lastBinds bindings t protocol

/-- A change of one entry that its history records keeps the maps in step with it. -/
theorem Follows.update {maps : Table → RefMap Str Fn} {bindings : List BindingOp}
    (h : Follows maps bindings) {t : Table} {protocol : Str} {m : RefMap Str Fn} {binds : Bool}
    (hself : (m.find protocol).isSome = binds)
    (hother : ∀ k, k ≠ protocol → m.find k = (maps t).find k) :
    Follows (Function.update maps t m) (⟨t, protocol, binds⟩ :: bindings) := by
  intro t' k
  show _ = if t = t' ∧ protocol = k then binds else lastBinds bindings t' k
  by_cases ht : t = t'
  · subst ht
    rw [Function.update_self]
    by_cases hk : protocol = k
    · subst hk
      rw [if_pos ⟨rfl, rfl⟩]
      exact hself
    · rw [if_neg fun h => hk h.2, hother k (Ne.symm hk)]
      exact h t k
  · rw [if_neg fun h => ht h.1, Function.update_of_ne (Ne.symm ht)]
    exact h t' k

theorem Follows.assign {maps : Table → RefMap Str Fn} {bindings : List BindingOp}
    (h : Follows maps bindings) (t : Table) (protocol : Str) (func : Fn) :
    Follows (Function.update maps t ((maps t).assign protocol func))
      (⟨t, protocol, true⟩ :: bindings) := by
  refine h.update ?_ fun k hk => if_neg hk
  show (if protocol = protocol then some ((maps t).assigned protocol func) else _).isSome = true
  rw [if_pos rfl]
  rfl

theorem Follows.erase {maps : Table → RefMap Str Fn} {bindings : List BindingOp}
    (h : Follows maps bindings) (t : Table) (protocol : Str) :
    Follows (Function.update maps t ((maps t).erase protocol))
      (⟨t, protocol, false⟩ :: bindings) := by
  refine h.update ?_ fun k hk => if_neg hk
  show (if protocol = protocol then (none : Option (Node Fn)) else _).isSome = false
  rw [if_pos rfl]
  rfl

/-! ## What a call has done so far -/

/-- What a call has appended depends on the enqueued tasks only. -/
theorem appended_of_eq {p p' : ThreadPool (PoolTask Fn Conn)} (h : p'.enqueued = p.enqueued)
    (id : CallId) : appended p' id = appended p id := by
  rw [appended, appended, h]

/-- Putting a call's task appends it to what the call has appended. -/
theorem appended_puts {p p' : ThreadPool (PoolTask Fn Conn)} {task : PoolTask Fn Conn}
    (h : p'.enqueued = p.enqueued ++ [task]) :
    appended p' task.id = appended p task.id ++ [task] := by
  rw [appended, appended, h, List.filter_append]
  exact congrArg _ (List.filter_cons_of_pos (decide_eq_true rfl))

theorem appended_puts_ne {p p' : ThreadPool (PoolTask Fn Conn)} {task : PoolTask Fn Conn}
    (h : p'.enqueued = p.enqueued ++ [task]) {id : CallId} (hid : task.id ≠ id) :
    appended p' id = appended p id := by
  rw [appended, appended, h, List.filter_append]
  have hnone : [task].filter (fun task => task.id = id) = [] :=
    List.filter_cons_of_neg fun heq => hid (of_decide_eq_true heq)
  rw [hnone, List.append_nil]

/-- What an answer means does not change while nothing is appended for its call. -/
theorem Exact.congr {p p' : ThreadPool (PoolTask Fn Conn)} {call : RouteCall Conn} {ok : Bool}
    (h : Exact p call ok) (heq : appended p' call.id = appended p call.id) :
    Exact p' call ok := by
  constructor
  · exact h.bound
  · rw [heq]
    exact h.accepted
  · rw [heq]
    exact h.refused

/-- An I/O thread between two calls, or in a call before or after its task is enqueued; `id` is
    that of its next or present call. -/
inductive ThreadState (p : ThreadPool (PoolTask Fn Conn)) (id : CallId) :
    Option (RouteCall Conn) → Prop where
  | free (hcarried : carried p id.thread = none) (happended : appended p id = []) :
      ThreadState p id none
  | carries {call : RouteCall Conn} {task : PoolTask Fn Conn} (hid : call.id = id)
      (hbound : call.Bound) (hserves : task.Serves call) (htask : task.id = id)
      (hcarried : carried p id.thread = some task) (happended : appended p id = []) :
      ThreadState p id (some call)
  | enqueued {call : RouteCall Conn} {task : PoolTask Fn Conn} (hid : call.id = id)
      (hbound : call.Bound) (hserves : task.Serves call)
      (hcarried : carried p id.thread = none) (happended : appended p id = [task]) :
      ThreadState p id (some call)

theorem ThreadState.congr {p p' : ThreadPool (PoolTask Fn Conn)} {id : CallId}
    {call : Option (RouteCall Conn)} (h : ThreadState p id call)
    (hcarried : carried p' id.thread = carried p id.thread)
    (happended : appended p' id = appended p id) : ThreadState p' id call := by
  cases h with
  | free hc ha => exact .free (hcarried.trans hc) (happended.trans ha)
  | carries hid hbound hserves htask hc ha =>
      exact .carries hid hbound hserves htask (hcarried.trans hc) (happended.trans ha)
  | enqueued hid hbound hserves hc ha =>
      exact .enqueued hid hbound hserves (hcarried.trans hc) (happended.trans ha)

/-- A task that a thread carries is the task of its present call. -/
theorem ThreadState.task_id {p : ThreadPool (PoolTask Fn Conn)} {id : CallId}
    {call : Option (RouteCall Conn)} (h : ThreadState p id call) {task : PoolTask Fn Conn}
    (hcarried : carried p id.thread = some task) : task.id = id := by
  cases h with
  | carries _ _ _ htask hc _ =>
      rw [hc] at hcarried
      cases hcarried
      exact htask
  | free hc | enqueued _ _ _ hc =>
      rw [hc] at hcarried
      exact nomatch hcarried

/-- Enqueueing what it carries brings a call to its second half. -/
theorem ThreadState.puts {p p' : ThreadPool (PoolTask Fn Conn)} {id : CallId}
    {call : Option (RouteCall Conn)} (h : ThreadState p id call) {task : PoolTask Fn Conn}
    (hbefore : carried p id.thread = some task) (hafter : carried p' id.thread = none)
    (henqueued : p'.enqueued = p.enqueued ++ [task]) : ThreadState p' id call := by
  cases h with
  | carries hid hbound hserves htask hc ha =>
      rw [hc] at hbefore
      cases hbefore
      subst htask
      refine .enqueued hid hbound hserves hafter ?_
      rw [appended_puts henqueued, ha]
      rfl
  | free hc | enqueued _ _ _ hc =>
      rw [hc] at hbefore
      exact nomatch hbefore

/-! ## The invariant -/

/-- The router between two steps: its maps follow the history, every calling thread is where its
    call says, and every answer given so far is exact. -/
structure Consistent (r : Router Fn Conn) : Prop where
  tables : Follows r.maps r.bindings
  threads : ∀ j, ThreadState r.threadpool ⟨j, r.count j⟩ (r.calls j)
  -- no task of a later call is in the queue
  fresh : ∀ j n, r.count j < n → appended r.threadpool ⟨j, n⟩ = []
  returned : ∀ call ok, (call, ok) ∈ r.returned →
    call.id.number < r.count call.id.thread ∧ Exact r.threadpool call ok

/-- A change of the pool that leaves alone what is carried and enqueued. -/
theorem Consistent.keeps {r : Router Fn Conn} (h : Consistent r)
    {p : ThreadPool (PoolTask Fn Conn)} (hcarried : ∀ j, carried p j = carried r.threadpool j)
    (henqueued : p.enqueued = r.threadpool.enqueued) :
    Consistent { r with threadpool := p } := by
  have happended := appended_of_eq henqueued
  refine ⟨h.tables, ?_, ?_, ?_⟩
  · intro j
    exact (h.threads j).congr (hcarried j) (happended _)
  · intro j n hn
    exact (happended _).trans (h.fresh j n hn)
  · intro call ok hmem
    obtain ⟨hlt, hexact⟩ := h.returned call ok hmem
    exact ⟨hlt, hexact.congr (happended _)⟩

/-- **THE APPEND**: the task of a call in progress enters the queue once, and its call carries it
    no longer. -/
theorem Consistent.puts {r : Router Fn Conn} (h : Consistent r)
    {p : ThreadPool (PoolTask Fn Conn)} {j : Nat} {task : PoolTask Fn Conn}
    (hbefore : carried r.threadpool j = some task) (hafter : carried p j = none)
    (hother : ∀ i, i ≠ j → carried p i = carried r.threadpool i)
    (henqueued : p.enqueued = r.threadpool.enqueued ++ [task]) :
    Consistent { r with threadpool := p } := by
  have htask : task.id = ⟨j, r.count j⟩ := (h.threads j).task_id hbefore
  have hne : ∀ id : CallId, (id.thread = j → id.number ≠ r.count j) →
      appended p id = appended r.threadpool id := by
    intro id hid
    refine appended_puts_ne henqueued ?_
    intro heq
    rw [htask] at heq
    subst heq
    exact hid rfl rfl
  refine ⟨h.tables, ?_, ?_, ?_⟩
  · intro i
    by_cases hij : i = j
    · subst hij
      exact (h.threads i).puts hbefore hafter henqueued
    · exact (h.threads i).congr (hother i hij) (hne _ fun heq => absurd heq hij)
  · intro i n hn
    refine (hne _ ?_).trans (h.fresh i n hn)
    intro hij heq
    rw [show i = j from hij, show n = r.count j from heq] at hn
    exact Nat.lt_irrefl _ hn
  · intro call ok hmem
    obtain ⟨hlt, hexact⟩ := h.returned call ok hmem
    refine ⟨hlt, hexact.congr (hne _ ?_)⟩
    intro hthread heq
    rw [hthread, heq] at hlt
    exact Nat.lt_irrefl _ hlt

/-- The return of a thread's present call, once its answer is exact. -/
theorem Consistent.returns {r : Router Fn Conn} (h : Consistent r) {call : RouteCall Conn}
    {ok : Bool} (hid : call.id = ⟨call.id.thread, r.count call.id.thread⟩)
    (hcarried : carried r.threadpool call.id.thread = none)
    (hexact : Exact r.threadpool call ok) : Consistent (r.returns call ok) := by
  have hnumber : call.id.number = r.count call.id.thread := congrArg CallId.number hid
  have hle : ∀ j, r.count j ≤ (r.returns call ok).count j := by
    intro j
    show r.count j ≤ Function.update r.count call.id.thread (call.id.number + 1) j
    by_cases hj : j = call.id.thread
    · subst hj
      rw [Function.update_self, hnumber]
      exact Nat.le_succ _
    · exact Nat.le_of_eq (Function.update_of_ne hj _ _).symm
  refine ⟨h.tables, ?_, ?_, ?_⟩
  · intro j
    show ThreadState r.threadpool
      ⟨j, Function.update r.count call.id.thread (call.id.number + 1) j⟩
      (Function.update r.calls call.id.thread none j)
    by_cases hj : j = call.id.thread
    · subst hj
      rw [Function.update_self, Function.update_self, hnumber]
      exact .free hcarried (h.fresh _ _ (Nat.lt_succ_self _))
    · rw [Function.update_of_ne hj, Function.update_of_ne hj]
      exact h.threads j
  · intro j n hn
    exact h.fresh j n (Nat.lt_of_le_of_lt (hle j) hn)
  · intro call' ok' hmem
    rcases List.mem_append.mp hmem with hold | hnew
    · obtain ⟨hlt, hexact'⟩ := h.returned call' ok' hold
      exact ⟨Nat.lt_of_lt_of_le hlt (hle _), hexact'⟩
    · rw [List.mem_singleton] at hnew
      cases hnew
      refine ⟨?_, hexact⟩
      show call.id.number < Function.update r.count call.id.thread (call.id.number + 1) _
      rw [Function.update_self]
      exact Nat.lt_succ_self _

/-! ## Routing -/

/-- A call whose protocol has no entry in the table of its mode is refused. -/
theorem Consistent.refuses {r : Router Fn Conn} (h : Consistent r) {call : RouteCall Conn}
    (hid : call.id = ⟨call.id.thread, r.count call.id.thread⟩)
    (hfree : r.calls call.id.thread = none) (hunbound : ¬ call.Bound) :
    Consistent (r.returns call false) := by
  have hthread := h.threads call.id.thread
  rw [hfree, ← hid] at hthread
  cases hthread with
  | free hcarried happended =>
      refine h.returns hid hcarried ⟨?_, nofun, fun _ => happended⟩
      constructor
      · exact nofun
      · intro hbound
        exact absurd hbound hunbound

/-- A call that finds its entry calls `add_task` with a task for that entry. -/
theorem Consistent.admits {r : Router Fn Conn} (h : Consistent r) {call : RouteCall Conn}
    (hid : call.id = ⟨call.id.thread, r.count call.id.thread⟩)
    (hfree : r.calls call.id.thread = none) (hbound : call.Bound)
    {task : PoolTask Fn Conn} (hserves : task.Serves call) (htask : task.id = call.id)
    (hidle : r.threadpool.producers[call.id.thread]? = some .idle) :
    Consistent { r with
      threadpool := r.threadpool.setProducer call.id.thread (.stopTest task)
      calls := Function.update r.calls call.id.thread (some call) } := by
  refine ⟨h.tables, ?_, h.fresh, ?_⟩
  · intro j
    show ThreadState _ ⟨j, r.count j⟩ (Function.update r.calls call.id.thread (some call) j)
    by_cases hj : j = call.id.thread
    · subst hj
      have hthread := h.threads call.id.thread
      rw [hfree] at hthread
      rw [Function.update_self]
      cases hthread with
      | free hcarried happended =>
          exact .carries hid hbound hserves (htask.trans hid)
            (carried_setProducer_self hidle _) happended
    · rw [Function.update_of_ne hj]
      exact (h.threads j).congr (carried_setProducer_ne _ hj _) rfl
  · intro call' ok hmem
    obtain ⟨hlt, hexact⟩ := h.returned call' ok hmem
    exact ⟨hlt, hexact.congr rfl⟩

/-- What a branch of `route` for a valid mode does. -/
theorem routeIn_cases {r r' : Router Fn Conn} {t : Table} {call : RouteCall Conn}
    (hs : r.routeIn t call = some r') :
    ((r.maps t).find call.protocol = none ∧ r' = r.returns call false)
    ∨ ∃ node, (r.maps t).find call.protocol = some node
        ∧ r.threadpool.producers[call.id.thread]? = some .idle
        ∧ r' = { r with
            threadpool := r.threadpool.setProducer call.id.thread (.stopTest ⟨call.id,
              t, ⟨call.protocol, node.id⟩, call.body, call.conn, node.value⟩)
            calls := Function.update r.calls call.id.thread (some call) } := by
  rw [Router.routeIn] at hs
  split at hs
  · rename_i hfind
    cases hs
    exact Or.inl ⟨hfind, rfl⟩
  · rename_i node hfind
    obtain ⟨p, hp, rfl⟩ := Option.map_eq_some_iff.mp hs
    refine Or.inr ⟨node, hfind, ?_⟩
    cases step_cases hp with
    | producerCalls hidle => exact ⟨hidle, rfl⟩

/-- The lookup of a call: an answer `false` with nothing appended, or a task that goes to the
    pool. -/
theorem Consistent.routeIn {r r' : Router Fn Conn} (h : Consistent r) {t : Table}
    {call : RouteCall Conn} (hid : call.id = ⟨call.id.thread, r.count call.id.thread⟩)
    (hfree : r.calls call.id.thread = none) (hbindings : call.bindings = r.bindings)
    (ht : tableOf call.mode = some t) (hs : r.routeIn t call = some r') : Consistent r' := by
  have hfollows := h.tables t call.protocol
  rcases routeIn_cases hs with ⟨hfind, rfl⟩ | ⟨node, hfind, hidle, rfl⟩
  · refine h.refuses hid hfree ?_
    rintro ⟨t', ht', hlast⟩
    rw [ht] at ht'
    cases ht'
    rw [hbindings, ← hfollows, hfind] at hlast
    exact nomatch hlast
  · refine h.admits hid hfree ⟨t, ht, ?_⟩ ⟨ht, rfl, rfl, rfl⟩ rfl hidle
    rw [hbindings, ← hfollows, hfind]
    rfl

/-- `route` of either mode, and of one that is neither. -/
theorem Consistent.route {r r' : Router Fn Conn} (h : Consistent r) {call : RouteCall Conn}
    (hid : call.id = ⟨call.id.thread, r.count call.id.thread⟩)
    (hfree : r.calls call.id.thread = none) (hbindings : call.bindings = r.bindings)
    (hs : r.route call = some r') : Consistent r' := by
  rw [Router.route] at hs
  by_cases hnonRaw : call.mode = .nonRaw
  · rw [if_pos hnonRaw] at hs
    exact h.routeIn hid hfree hbindings (if_pos hnonRaw) hs
  · rw [if_neg hnonRaw] at hs
    by_cases hraw : call.mode = .raw
    · rw [if_pos hraw] at hs
      refine h.routeIn hid hfree hbindings ?_ hs
      rw [tableOf, if_neg hnonRaw, if_pos hraw]
    · rw [if_neg hraw] at hs
      have hnone : tableOf call.mode = none := by rw [tableOf, if_neg hnonRaw, if_neg hraw]
      have hrefused : Consistent (r.returns call false) := by
        refine h.refuses hid hfree ?_
        rintro ⟨t, ht, -⟩
        rw [hnone] at ht
        exact nomatch ht
      cases hs
      exact ⟨hrefused.tables, hrefused.threads, hrefused.fresh, hrefused.returned⟩

/-- A call returns `true` once its `add_task` is over. -/
theorem returnTrue_cases {r r' : Router Fn Conn} {j : Nat}
    (hs : r.step (.returnTrue j) = some r') :
    ∃ call, r.calls j = some call ∧ r.threadpool.producers[j]? = some .idle
      ∧ r' = r.returns call true := by
  replace hs : (match r.calls j, r.threadpool.producers[j]? with
    | some call, some .idle => some (r.returns call true)
    | _, _ => none) = some r' := hs
  split at hs
  · rename_i call hcall hidle
    cases hs
    exact ⟨call, hcall, hidle, rfl⟩
  · cases hs

/-- The return of a call whose `add_task` is over. -/
theorem Consistent.returnTrue {r r' : Router Fn Conn} (h : Consistent r) {j : Nat}
    (hs : r.step (.returnTrue j) = some r') : Consistent r' := by
  obtain ⟨call, hcall, hidle, rfl⟩ := returnTrue_cases hs
  have hthread := h.threads j
  rw [hcall] at hthread
  cases hthread with
  | carries hid hbound hserves htask hcarried =>
      rw [carried_of hidle] at hcarried
      exact nomatch hcarried
  | @enqueued _ task hid hbound hserves hcarried happended =>
      have hj : call.id.thread = j := congrArg CallId.thread hid
      subst hj
      refine h.returns hid hcarried ⟨iff_of_true rfl hbound, ?_, nofun⟩
      intro _
      rw [hid]
      exact ⟨task, happended, hserves⟩

/-- More workers change nothing that the answers depend on. -/
theorem Consistent.multithreaded {r : Router Fn Conn} (h : Consistent r) (num : Nat) :
    Consistent (r.multithreaded num) := by
  rw [Router.multithreaded]
  split
  · rename_i p hp
    rw [initThreadNum_ok hp]
    exact h.keeps (fun _ => rfl) rfl
  · exact h

/-- **THE STEP LEMMA**: as long as `add_task` finds the pool running, every step keeps the router
    consistent. -/
theorem Consistent.step {r r' : Router Fn Conn} {a : Act Fn Conn} (h : Consistent r)
    (ha : TestsRunningPool r a) (hs : r.step a = some r') : Consistent r' := by
  cases a with
  | bind protocol func =>
      cases hs
      exact ⟨h.tables.assign _ _ _, h.threads, h.fresh, h.returned⟩
  | bindRaw protocol func =>
      cases hs
      exact ⟨h.tables.assign _ _ _, h.threads, h.fresh, h.returned⟩
  | unbind protocol =>
      cases hs
      exact ⟨h.tables.erase _ _, h.threads, h.fresh, h.returned⟩
  | unbindRaw protocol =>
      cases hs
      exact ⟨h.tables.erase _ _, h.threads, h.fresh, h.returned⟩
  | multithreaded num =>
      cases hs
      exact h.multithreaded num
  | pool a =>
      obtain ⟨hadd, hs⟩ := Option.ite_none_left_eq_some.mp hs
      obtain ⟨p, hp, rfl⟩ := Option.map_eq_some_iff.mp hs
      cases carry_step (step_cases hp) with
      | keeps hcarried henqueued => exact h.keeps hcarried henqueued
      | calls hact =>
          subst hact
          exact absurd rfl hadd
      | puts hbefore hafter hother henqueued => exact h.puts hbefore hafter hother henqueued
      | drops hact hpc hset =>
          rw [ha _ _ _ (congrArg Act.pool hact) hpc] at hset
          exact nomatch hset
  | route j protocol body mode conn =>
      obtain ⟨hfree, hs⟩ := Option.ite_none_left_eq_some.mp hs
      rw [Option.not_isSome_iff_eq_none] at hfree
      exact h.route rfl hfree rfl hs
  | returnTrue j => exact h.returnTrue hs

/-- In every run whose calls find the pool running, the router is consistent. -/
theorem consistent_of_reaches {r : Router Fn Conn}
    (h : Reaches (routerSystem Fn Conn) TestsRunningPool r) : Consistent r := by
  refine h.invariant ?_ ?_
  · rintro r ⟨m, rfl⟩
    exact ⟨fun _ _ => rfl, fun j => .free (carried_initial 0 m j) rfl, fun _ _ _ => rfl, nofun⟩
  · intro r a r' hI ha hs
    exact hI.step ha hs

/-- The maps follow the history across every step, whatever the pool does. -/
theorem Follows.step {r r' : Router Fn Conn} {a : Act Fn Conn} (h : Follows r.maps r.bindings)
    (hs : r.step a = some r') : Follows r'.maps r'.bindings := by
  have hrouteIn : ∀ {t : Table} {call : RouteCall Conn}, r.routeIn t call = some r' →
      Follows r'.maps r'.bindings := by
    intro t call hs
    rcases routeIn_cases hs with ⟨-, rfl⟩ | ⟨node, -, -, rfl⟩
    · exact h
    · exact h
  cases a with
  | bind | bindRaw =>
      cases hs
      exact h.assign _ _ _
  | unbind | unbindRaw =>
      cases hs
      exact h.erase _ _
  | multithreaded num =>
      cases hs
      rw [Router.multithreaded]
      split <;> exact h
  | pool a =>
      obtain ⟨-, hs⟩ := Option.ite_none_left_eq_some.mp hs
      obtain ⟨p, -, rfl⟩ := Option.map_eq_some_iff.mp hs
      exact h
  | route j protocol body mode conn =>
      obtain ⟨-, hs⟩ := Option.ite_none_left_eq_some.mp hs
      rw [Router.route] at hs
      split at hs
      · exact hrouteIn hs
      · split at hs
        · exact hrouteIn hs
        · cases hs
          exact h
  | returnTrue j =>
      obtain ⟨call, -, -, rfl⟩ := returnTrue_cases hs
      exact h

/-- **`is_bind` IS EXACT** in every run, stopped or not: it tells whether the last binding
    operation on the protocol in its table was a bind. -/
theorem is_bind_exact {ok : Router Fn Conn → Act Fn Conn → Prop} {r : Router Fn Conn}
    (h : Reaches (routerSystem Fn Conn) ok r) (protocol : Str) :
    r.isBind protocol = lastBinds r.bindings .invokerMap protocol
    ∧ r.isBindRaw protocol = lastBinds r.bindings .invokerRawMap protocol := by
  have hfollows : Follows r.maps r.bindings := by
    refine h.invariant (I := fun r => Follows r.maps r.bindings) ?_ ?_
    · rintro r ⟨m, rfl⟩ t k
      rfl
    · intro r a r' hI _ hs
      exact Follows.step hI hs
  exact ⟨hfollows .invokerMap protocol, hfollows .invokerRawMap protocol⟩

/-! ## Refusals and dropped tasks -/

/-- The step returns `false` from this call. -/
def Refuses (r : Router Fn Conn) (a : Act Fn Conn) (r' : Router Fn Conn) : Prop :=
  r.step a = some r' ∧ ∃ call, (call, false) ∈ r'.returned ∧ (call, false) ∉ r.returned

/-- **A REFUSAL CHANGES NOTHING**, neither the tables nor the pool. -/
theorem refusal_unchanged {r r' : Router Fn Conn} {a : Act Fn Conn} (h : Refuses r a r') :
    r'.maps = r.maps ∧ r'.threadpool = r.threadpool := by
  obtain ⟨hs, call, hmem, hnew⟩ := h
  have hrouteIn : ∀ {t : Table} {call' : RouteCall Conn}, r.routeIn t call' = some r' →
      r'.maps = r.maps ∧ r'.threadpool = r.threadpool := by
    intro t call' hs
    rcases routeIn_cases hs with ⟨-, rfl⟩ | ⟨node, -, -, rfl⟩
    · exact ⟨rfl, rfl⟩
    · exact absurd hmem hnew
  cases a with
  | bind | bindRaw | unbind | unbindRaw =>
      cases hs
      exact absurd hmem hnew
  | multithreaded num =>
      cases hs
      have hreturned : (r.multithreaded num).returned = r.returned := by
        rw [Router.multithreaded]
        split <;> rfl
      rw [hreturned] at hmem
      exact absurd hmem hnew
  | pool a =>
      obtain ⟨-, hs⟩ := Option.ite_none_left_eq_some.mp hs
      obtain ⟨p, -, rfl⟩ := Option.map_eq_some_iff.mp hs
      exact absurd hmem hnew
  | route j protocol body mode conn =>
      obtain ⟨-, hs⟩ := Option.ite_none_left_eq_some.mp hs
      rw [Router.route] at hs
      split at hs
      · exact hrouteIn hs
      · split at hs
        · exact hrouteIn hs
        · cases hs
          exact ⟨rfl, rfl⟩
  | returnTrue j =>
      obtain ⟨call', -, -, rfl⟩ := returnTrue_cases hs
      rcases List.mem_append.mp hmem with hold | hlast
      · exact absurd hold hnew
      · rw [List.mem_singleton] at hlast
        exact nomatch hlast

/-- A call that meets the stop flag drops its task, and the next thing it does is to return
    `true`. -/
theorem dropped_returns_true {r r' : Router Fn Conn} {a : Act Fn Conn} (h : Consistent r)
    (ha : ¬ TestsRunningPool r a) (hs : r.step a = some r') :
    ∃ r'' call, Leads (routerSystem Fn Conn) r' r'' ∧ (call, true) ∈ r''.returned
      ∧ ¬ Exact r''.threadpool call true := by
  simp only [TestsRunningPool, not_forall, Bool.not_eq_false] at ha
  obtain ⟨j, w, task, rfl, hpc, hset⟩ := ha
  -- the task is dropped
  have hdropped : r' = { r with threadpool := r.threadpool.setProducer j .idle } := by
    unfold Router.step at hs
    obtain ⟨-, hs⟩ := Option.ite_none_left_eq_some.mp hs
    obtain ⟨p, hp, rfl⟩ := Option.map_eq_some_iff.mp hs
    replace hp : r.threadpool.producerStep j w = some p := hp
    rw [ThreadPool.producerStep, hpc] at hp
    replace hp : (if r.threadpool.isStopThreadpool then some (r.threadpool.setProducer j .idle)
      else some (r.threadpool.setProducer j (.lock task))) = some p := hp
    rw [if_pos hset] at hp
    rw [← Option.some.inj hp]
  -- and the call that carried it returns
  have hthread := h.threads j
  cases hcall : r.calls j with
  | none =>
      rw [hcall] at hthread
      cases hthread with
      | free hcarried =>
          rw [carried_of hpc] at hcarried
          cases hcarried
  | some call =>
      rw [hcall] at hthread
      cases hthread with
      | enqueued _ _ _ hcarried =>
          rw [carried_of hpc] at hcarried
          cases hcarried
      | carries hid _ _ _ _ happended =>
          have hidle : r'.threadpool.producers[j]? = some .idle := by
            rw [hdropped]
            exact getElem?_set_moved hpc
          have hreturn : (routerSystem Fn Conn).step r' (.returnTrue j)
              = some (r'.returns call true) := by
            show (match r'.calls j, r'.threadpool.producers[j]? with
              | some call, some .idle => some (r'.returns call true)
              | _, _ => none) = _
            rw [hidle, hdropped, hcall]
          refine ⟨_, call, Leads.one hreturn, List.mem_append_right _ (List.mem_singleton_self _),
            ?_⟩
          intro hexact
          obtain ⟨task, hone, -⟩ := hexact.accepted rfl
          replace hone : appended r'.threadpool call.id = [task] := hone
          rw [hdropped, hid] at hone
          cases happended.symm.trans hone

/-! ## Calls return -/

theorem producers_length_step {p p' : ThreadPool Task} {a : EasyRpcThreadPool.Act Task}
    (hs : Step p a p') : p'.producers.length = p.producers.length := by
  cases hs with
  | producerCalls | producerDeclined | producerAdmitted | producerWaits | producerPuts
  | producerSleeps | producerWakesNone | producerWakes | producerSpurious | workerWakes =>
      exact List.length_set
  | workerWaits | workerLeaves | workerTakes | workerSleeps | workerEnds | workerWakesNone
  | workerSpurious | stopCalled | stopStores | stopNotifies | stopJoins | stopClears => rfl

/-- New workers start at the top of their loop. -/
theorem sound_initThreadNum {p q : ThreadPool Task} {num : Nat} (hS : Sound p)
    (h : initThreadNum p num = .ok q) : Sound q ∧ q.producers = p.producers := by
  rw [initThreadNum_ok h]
  refine ⟨⟨⟨?_, hS.wait.producer⟩, ⟨?_, hS.mutex.producer⟩, ?_⟩, rfl⟩
  · intro i hi
    by_cases hlt : i < p.workers.length
    · rw [List.getElem?_append_left hlt] at hi
      exact hS.wait.worker i hi
    · rw [List.getElem?_append_right (Nat.le_of_not_lt hlt)] at hi
      exact nomatch List.eq_of_mem_replicate (List.mem_of_getElem? hi)
  · intro i hi
    have hold := hS.mutex.worker i hi
    rw [List.getElem?_append_left (List.getElem?_eq_some_iff.mp hold).1]
    exact hold
  · intro hrun pc hmem
    rcases List.mem_append.mp hmem with hold | hnew
    · exact hS.noneLeft hrun pc hold
    · rw [List.eq_of_mem_replicate hnew]
      rfl

/-- The pool is sound, and a call is made by a thread that exists. -/
structure Healthy (r : Router Fn Conn) : Prop where
  sound : Sound r.threadpool
  thread : ∀ j call, r.calls j = some call → j < r.threadpool.producers.length

theorem Healthy.pool {r : Router Fn Conn} (h : Healthy r)
    {a : EasyRpcThreadPool.Act (PoolTask Fn Conn)} {p : ThreadPool (PoolTask Fn Conn)}
    (hs : r.threadpool.step a = some p) : Healthy { r with threadpool := p } := by
  refine ⟨h.sound.step hs, ?_⟩
  intro j call hcall
  show j < p.producers.length
  rw [producers_length_step (step_cases hs)]
  exact h.thread j call hcall

theorem Healthy.returns {r : Router Fn Conn} (h : Healthy r) (call : RouteCall Conn) (ok : Bool) :
    Healthy (r.returns call ok) := by
  refine ⟨h.sound, ?_⟩
  intro j call' hcall
  replace hcall : Function.update r.calls call.id.thread none j = some call' := hcall
  by_cases hj : j = call.id.thread
  · rw [hj, Function.update_self] at hcall
    exact nomatch hcall
  · rw [Function.update_of_ne hj] at hcall
    exact h.thread j call' hcall

theorem Healthy.routeIn {r r' : Router Fn Conn} (h : Healthy r) {t : Table}
    {call : RouteCall Conn} (hs : r.routeIn t call = some r') : Healthy r' := by
  rcases routeIn_cases hs with ⟨-, rfl⟩ | ⟨node, -, hidle, rfl⟩
  · exact h.returns call false
  · have hadd : ∀ task, r.threadpool.step (.addTask call.id.thread task)
        = some (r.threadpool.setProducer call.id.thread (.stopTest task)) := by
      intro task
      simp only [ThreadPool.step, hidle]
    have hpool := h.pool (hadd ⟨call.id,
      t, ⟨call.protocol, node.id⟩, call.body, call.conn, node.value⟩)
    refine ⟨hpool.sound, ?_⟩
    intro j call' hcall
    replace hcall : Function.update r.calls call.id.thread (some call) j = some call' := hcall
    by_cases hj : j = call.id.thread
    · show j < (r.threadpool.producers.set call.id.thread _).length
      rw [List.length_set, hj]
      exact (List.getElem?_eq_some_iff.mp hidle).1
    · rw [Function.update_of_ne hj] at hcall
      exact hpool.thread j call' hcall

theorem Healthy.step {r r' : Router Fn Conn} {a : Act Fn Conn} (h : Healthy r)
    (hs : r.step a = some r') : Healthy r' := by
  cases a with
  | bind | bindRaw | unbind | unbindRaw =>
      cases hs
      exact ⟨h.sound, h.thread⟩
  | multithreaded num =>
      cases hs
      rw [Router.multithreaded]
      split
      · rename_i p hp
        obtain ⟨hsound, hsame⟩ := sound_initThreadNum h.sound hp
        refine ⟨hsound, ?_⟩
        intro j call hcall
        show j < p.producers.length
        rw [hsame]
        exact h.thread j call hcall
      · exact h
  | pool a =>
      obtain ⟨-, hs⟩ := Option.ite_none_left_eq_some.mp hs
      obtain ⟨p, hp, rfl⟩ := Option.map_eq_some_iff.mp hs
      exact h.pool hp
  | route j protocol body mode conn =>
      obtain ⟨-, hs⟩ := Option.ite_none_left_eq_some.mp hs
      rw [Router.route] at hs
      split at hs
      · exact h.routeIn hs
      · split at hs
        · exact h.routeIn hs
        · cases hs
          have hreturned := h.returns ⟨⟨j, r.count j⟩, protocol, body, mode, conn, r.bindings⟩ false
          exact ⟨hreturned.sound, hreturned.thread⟩
  | returnTrue j =>
      obtain ⟨call, -, -, rfl⟩ := returnTrue_cases hs
      exact h.returns call true

theorem healthy_of_reaches {ok : Router Fn Conn → Act Fn Conn → Prop} {r : Router Fn Conn}
    (h : Reaches (routerSystem Fn Conn) ok r) : Healthy r := by
  refine h.invariant ?_ ?_
  · rintro r ⟨m, rfl⟩
    have hr : Reachable poolSystem (ThreadPool.initial 0 m : ThreadPool (PoolTask Fn Conn)) :=
      Reachable.start ⟨0, m, rfl⟩
    exact ⟨⟨waitInv_of_reaches hr, mutexInv_of_reaches hr, noneLeft_of_reaches hr⟩, nofun⟩
  · intro r a r' hI _ hs
    exact hI.step hs

/-- **A CALL RETURNS**: while the flag is unset and the pool has a worker, a call that has found
    its entry can always return. -/
theorem call_can_return {r : Router Fn Conn} (h : Healthy r) {j : Nat} {call : RouteCall Conn}
    (hcall : r.calls j = some call) (hrun : r.threadpool.isStopThreadpool = false)
    (hsome : r.threadpool.workers ≠ []) :
    ∃ r', Leads (routerSystem Fn Conn) r r' ∧ (call, true) ∈ r'.returned := by
  have hj := List.getElem?_eq_getElem (h.thread j call hcall)
  obtain ⟨q, hlead, hidle⟩ := add_task_returns h.sound hrun hsome hj
  have hpool : Leads (routerSystem Fn Conn) r { r with threadpool := q } := by
    refine Leads.simulation (fun p => { r with threadpool := p }) ?_ hlead
    intro p a p' hs
    refine ⟨.pool a, ?_⟩
    obtain ⟨hadd, hs⟩ := Option.ite_none_left_eq_some.mp hs
    show (if isAddTask a then none
      else (p.step a).map fun p => { r with threadpool := p }) = _
    rw [if_neg hadd, hs]
    rfl
  have hreturn : (routerSystem Fn Conn).step { r with threadpool := q } (.returnTrue j)
      = some (Router.returns { r with threadpool := q } call true) := by
    show (match r.calls j, q.producers[j]? with
      | some call, some .idle => some (Router.returns { r with threadpool := q } call true)
      | _, _ => none) = _
    rw [hcall, hidle]
  exact ⟨_, hpool.trans (Leads.one hreturn), List.mem_append_right _ (List.mem_singleton_self _)⟩

/-- **ROUTING IS EXACT** in every run in which no call meets the stop flag once it has found its
    entry: its answer tells whether its protocol was bound, and then it has appended one task with
    its body and connection.  In any run a refusal changes nothing, and a call on a running pool
    with a worker can return.  After a call has met the flag the run can go on so that `route`
    returns `true` with nothing enqueued.  Only answers are spoken of: a call that is blocked on
    the full queue when the stop comes may never return, and then says nothing. -/
theorem routed_exactly (Fn Conn : Type) :
    (∀ r : Router Fn Conn, Reaches (routerSystem Fn Conn) TestsRunningPool r →
      ∀ call ok, (call, ok) ∈ r.returned → Exact r.threadpool call ok)
    ∧ (∀ (r r' : Router Fn Conn) (a : Act Fn Conn), Refuses r a r' →
        r'.maps = r.maps ∧ r'.threadpool = r.threadpool)
    ∧ (∀ r : Router Fn Conn, Reachable (routerSystem Fn Conn) r →
        ∀ j call, r.calls j = some call → r.threadpool.isStopThreadpool = false →
          r.threadpool.workers ≠ [] →
          ∃ r', Leads (routerSystem Fn Conn) r r' ∧ (call, true) ∈ r'.returned)
    ∧ ∀ (r r' : Router Fn Conn) (a : Act Fn Conn),
        Reaches (routerSystem Fn Conn) TestsRunningPool r → ¬ TestsRunningPool r a →
        r.step a = some r' →
        ∃ r'' call, Leads (routerSystem Fn Conn) r' r'' ∧ (call, true) ∈ r''.returned
          ∧ ¬ Exact r''.threadpool call true := by
  refine ⟨?_, fun r r' a => refusal_unchanged, ?_, ?_⟩
  · intro r h call ok hmem
    exact ((consistent_of_reaches h).returned call ok hmem).2
  · intro r h j call hcall hrun hsome
    exact call_can_return (healthy_of_reaches h) hcall hrun hsome
  · intro r r' a h ha hs
    exact dropped_returns_true (consistent_of_reaches h) ha hs

/-- A bound protocol, a pool that runs. -/
def routedRun : List (Act Nat Unit) :=
  [.bind [7] 3, .route 0 [7] [1, 2] .nonRaw (), .pool (.producer 0 none),
    .pool (.producer 0 none), .pool (.producer 0 none), .returnTrue 0]

/-- A bound protocol, a pool whose flag is set. -/
def stoppedRun : List (Act Nat Unit) :=
  [.bind [7] 3, .pool .stop, .pool .terminate, .route 0 [7] [1, 2] .nonRaw ()]

/-- Routed on a running pool the call is exact; on a stopped one `route` returns `true` for a
    task that is not there. -/
theorem routed_exactly_at_bound :
    (∃ r call, exec (routerSystem Nat Unit) (.initial 1) routedRun = some r
      ∧ r.returned = [(call, true)] ∧ Exact r.threadpool call true)
    ∧ ∃ r r' r'' call, exec (routerSystem Nat Unit) (.initial 1) stoppedRun = some r
      ∧ r.step (.pool (.producer 0 none)) = some r' ∧ Leads (routerSystem Nat Unit) r' r''
      ∧ (call, true) ∈ r''.returned ∧ ¬ Exact r''.threadpool call true := by
  have hstart : Reaches (routerSystem Nat Unit) TestsRunningPool (.initial 1) :=
    Reaches.start ⟨1, rfl⟩
  have hbound := hstart.step (a := .bind [7] 3) (fun _ _ _ h => nomatch h) rfl
  have hfound := hbound.step (a := .route 0 [7] [1, 2] .nonRaw ()) (fun _ _ _ h => nomatch h) rfl
  have htested := hfound.step (a := .pool (.producer 0 none)) (fun _ _ _ _ _ => rfl) rfl
  have hput := htested.step (a := .pool (.producer 0 none)) (fun _ _ _ _ _ => rfl) rfl
  have hnotified := hput.step (a := .pool (.producer 0 none)) (fun _ _ _ _ _ => rfl) rfl
  have hreturned := hnotified.step (a := .returnTrue 0) (fun _ _ _ h => nomatch h) rfl
  have hexact := (routed_exactly Nat Unit).1 _ hreturned _ true (List.mem_singleton_self _)
  have hstopped := hbound.step (a := .pool .stop) (fun _ _ _ h => nomatch h) rfl
  have hstored := hstopped.step (a := .pool .terminate) (fun _ _ _ h => nomatch h) rfl
  have hlate := hstored.step (a := .route 0 [7] [1, 2] .nonRaw ()) (fun _ _ _ h => nomatch h) rfl
  obtain ⟨r'', call, hlead, hmem, hwrong⟩ := (routed_exactly Nat Unit).2.2.2 _ _
    (.pool (.producer 0 none)) hlate (fun h => nomatch h 0 none _ rfl rfl) rfl
  exact ⟨⟨_, _, rfl, rfl, hexact⟩, _, _, r'', call, rfl, rfl, hlead, hmem, hwrong⟩

/-- The protocol is bound, the pool is stopped, `route` returns `true`, and nothing has been
    appended to the queue. -/
theorem stopped_pool_drops_request :
    ¬ ∀ r : Router Nat Unit, Reachable (routerSystem Nat Unit) r →
      ∀ call ok, (call, ok) ∈ r.returned → Exact r.threadpool call ok := by
  intro h
  have hstart : Reachable (routerSystem Nat Unit) (.initial 1) := Reachable.start ⟨1, rfl⟩
  have hexec : exec (routerSystem Nat Unit) (.initial 1)
      (stoppedRun ++ [.pool (.producer 0 none), .returnTrue 0]) = some _ := rfl
  have hexact := h _ (hstart.exec hexec) _ true (List.mem_singleton_self _)
  obtain ⟨task, hone, -⟩ := hexact.accepted rfl
  exact nomatch (hone : [] = [task])

end EasyRpcRouting
