import EasyRpc.ReferenceMapProofs
import EasyRpc.ThreadPoolProofs
import EasyRpc.WireProofs

/-! # Routing and the bindings — which function a queued task runs

    `route` looks a protocol up in the map of its mode and puts a task into the pool's queue.  The
    task captures the found entry **by reference** (`[&func, args...]` in `add_task`) while the
    body and the connection are captured by value, and between routing and running `bind` may
    overwrite the entry in place and `unbind` may erase it.

    So the function a task runs is the one it was routed to exactly as long as no entry with a
    queued task is rebound to another function or unbound (`runs_routed_of_undisturbed`). -/

namespace EasyRpcBinding

open Transition ReferenceMap EasyRpcWire EasyRpcThreadPool

variable {Fn Conn : Type}

/-- The two maps of the router. -/
inductive Table where
  | invokerMap
  | invokerRawMap
  deriving DecidableEq

/-- What `route` puts into the queue: a closure over a reference to the map's function, a copy of
    the body and the connection. -/
structure RouteTask (Fn Conn : Type) where
  table : Table
  -- the captured reference `&func`
  func : Ref Str
  body : Str
  conn : Conn
  -- the function bound when the task was routed; no step reads it
  routed : Fn

/-- The router's two maps and its queue, with a record of the tasks that have run. -/
structure Router (Fn Conn : Type) where
  invokerMap : RefMap Str Fn
  invokerRawMap : RefMap Str Fn
  taskQueue : List (RouteTask Fn Conn)
  -- the tasks taken so far, each with the function found behind its reference
  ran : List (RouteTask Fn Conn × Option Fn)

namespace Router

/-- A router with nothing bound and nothing queued. -/
def empty : Router Fn Conn := ⟨.empty, .empty, [], []⟩

/-- The map that a mode looks up. -/
def map (r : Router Fn Conn) : Table → RefMap Str Fn
  | .invokerMap => r.invokerMap
  | .invokerRawMap => r.invokerRawMap

/-- The router with one of its maps replaced. -/
def setMap (r : Router Fn Conn) : Table → RefMap Str Fn → Router Fn Conn
  | .invokerMap, m => { r with invokerMap := m }
  | .invokerRawMap, m => { r with invokerRawMap := m }

/-- `map[protocol] = func`, for each of the forms of `bind` and `bind_raw`. -/
def bindIn (r : Router Fn Conn) (t : Table) (protocol : Str) (func : Fn) : Router Fn Conn :=
  r.setMap t ((r.map t).assign protocol func)

/-- `unbind` and `unbind_raw`: erase the entry, and with it the function it holds. -/
def unbindIn (r : Router Fn Conn) (t : Table) (protocol : Str) : Router Fn Conn :=
  r.setMap t ((r.map t).erase protocol)

/-- `router::bind`. -/
def bind (r : Router Fn Conn) (protocol : Str) (func : Fn) : Router Fn Conn :=
  r.bindIn .invokerMap protocol func

/-- `router::bind_raw`. -/
def bindRaw (r : Router Fn Conn) (protocol : Str) (func : Fn) : Router Fn Conn :=
  r.bindIn .invokerRawMap protocol func

/-- `router::unbind`. -/
def unbind (r : Router Fn Conn) (protocol : Str) : Router Fn Conn :=
  r.unbindIn .invokerMap protocol

/-- `router::unbind_raw`. -/
def unbindRaw (r : Router Fn Conn) (protocol : Str) : Router Fn Conn :=
  r.unbindIn .invokerRawMap protocol

/-- `thread_pool::add_task` on a running pool, blocked (`none`) while the queue is full. -/
def addTask (r : Router Fn Conn) (task : RouteTask Fn Conn) : Option (Router Fn Conn) :=
  if r.taskQueue.length == maxTaskQuqueSize then none
  else some { r with taskQueue := r.taskQueue ++ [task] }

/-- The two branches of `route` for a valid mode. -/
def routeIn (r : Router Fn Conn) (t : Table) (protocol body : Str) (conn : Conn) :
    Option (Router Fn Conn × Bool) :=
  match (r.map t).find protocol with
  | none => some (r, false)
  | some node =>
      (r.addTask ⟨t, ⟨protocol, node.id⟩, body, conn, node.value⟩).map fun r => (r, true)

/-- `router::route`: the mode chooses the map, and a mode that is neither is refused. -/
def route (r : Router Fn Conn) (protocol body : Str) (mode : CallMode) (conn : Conn) :
    Option (Router Fn Conn × Bool) :=
  if mode = .nonRaw then r.routeIn .invokerMap protocol body conn
  else if mode = .raw then r.routeIn .invokerRawMap protocol body conn
  else some (r, false)

/-- What the reference of a task sees now. -/
def deref (r : Router Fn Conn) (task : RouteTask Fn Conn) : Option Fn :=
  (r.map task.table).deref task.func

/-- A worker takes the first task and runs what it finds behind the reference. -/
def work (r : Router Fn Conn) : Option (Router Fn Conn) :=
  match r.taskQueue with
  | [] => none
  | task :: rest => some { r with taskQueue := rest, ran := r.ran ++ [(task, r.deref task)] }

end Router

/-- The calls made on a router, and a worker that runs the oldest task. -/
inductive Act (Fn Conn : Type) where
  | bind (protocol : Str) (func : Fn)
  | bindRaw (protocol : Str) (func : Fn)
  | unbind (protocol : Str)
  | unbindRaw (protocol : Str)
  | route (protocol body : Str) (mode : CallMode) (conn : Conn)
  | work

/-- One step of the router. -/
def Router.step (r : Router Fn Conn) : Act Fn Conn → Option (Router Fn Conn)
  | .bind protocol func => some (r.bind protocol func)
  | .bindRaw protocol func => some (r.bindRaw protocol func)
  | .unbind protocol => some (r.unbind protocol)
  | .unbindRaw protocol => some (r.unbindRaw protocol)
  | .route protocol body mode conn => (r.route protocol body mode conn).map Prod.fst
  | .work => r.work

/-- A router as a transition system. -/
def routerSystem (Fn Conn : Type) : System (Router Fn Conn) (Act Fn Conn) where
  start r := r = .empty
  step := Router.step

/-- Every task that has run found behind its reference the function it was routed to. -/
def RunsRouted (r : Router Fn Conn) : Prop :=
  ∀ e ∈ r.ran, e.2 = some e.1.routed

/-- A task is queued that refers to the entry of a protocol. -/
def Queued (r : Router Fn Conn) (t : Table) (protocol : Str) : Prop :=
  ∃ task ∈ r.taskQueue, task.table = t ∧ task.func.key = protocol

/-- The entry of a queued task is bound to another function. -/
def Rebinds (r : Router Fn Conn) (t : Table) (protocol : Str) (func : Fn) : Prop :=
  Queued r t protocol ∧ ∀ node, (r.map t).find protocol = some node → node.value ≠ func

/-- The entry of a queued task is bound to another function or erased. -/
def Disturbs (r : Router Fn Conn) : Act Fn Conn → Prop
  | .bind protocol func => Rebinds r .invokerMap protocol func
  | .bindRaw protocol func => Rebinds r .invokerRawMap protocol func
  | .unbind protocol => Queued r .invokerMap protocol
  | .unbindRaw protocol => Queued r .invokerRawMap protocol
  | .route _ _ _ _ => False
  | .work => False

/-! ## What the operations do to a reference -/

namespace Router

variable (r : Router Fn Conn)

@[simp] theorem setMap_taskQueue (t : Table) (m : RefMap Str Fn) :
    (r.setMap t m).taskQueue = r.taskQueue := by
  cases t <;> rfl

@[simp] theorem setMap_ran (t : Table) (m : RefMap Str Fn) : (r.setMap t m).ran = r.ran := by
  cases t <;> rfl

@[simp] theorem setMap_map_self (t : Table) (m : RefMap Str Fn) : (r.setMap t m).map t = m := by
  cases t <;> rfl

theorem setMap_map_ne {t t' : Table} (h : t' ≠ t) (m : RefMap Str Fn) :
    (r.setMap t m).map t' = r.map t' := by
  cases t with
  | invokerMap =>
      cases t' with
      | invokerMap => exact absurd rfl h
      | invokerRawMap => rfl
  | invokerRawMap =>
      cases t' with
      | invokerMap => rfl
      | invokerRawMap => exact absurd rfl h

variable {r}

/-- Binding leaves the tasks of other entries alone. -/
theorem deref_bindIn_ne {t : Table} {protocol : Str} {task : RouteTask Fn Conn}
    (h : ¬ (task.table = t ∧ task.func.key = protocol)) (func : Fn) :
    (r.bindIn t protocol func).deref task = r.deref task := by
  by_cases ht : task.table = t
  · subst ht
    have hkey : task.func.key ≠ protocol := fun hk => h ⟨rfl, hk⟩
    rw [deref, bindIn, setMap_map_self, RefMap.deref_assign_ne _ hkey]
    rfl
  · rw [deref, bindIn, setMap_map_ne r ht]
    rfl

/-- Erasing an entry leaves the references to all other entries as they were. -/
theorem deref_unbindIn_ne {t : Table} {protocol : Str} {task : RouteTask Fn Conn}
    (h : ¬ (task.table = t ∧ task.func.key = protocol)) :
    (r.unbindIn t protocol).deref task = r.deref task := by
  by_cases ht : task.table = t
  · subst ht
    have hkey : task.func.key ≠ protocol := fun hk => h ⟨rfl, hk⟩
    rw [deref, unbindIn, setMap_map_self, RefMap.deref_erase_ne _ hkey]
    rfl
  · rw [deref, unbindIn, setMap_map_ne r ht]
    rfl

/-- A queued task sees what its entry is rebound to. -/
theorem deref_bindIn_self {task : RouteTask Fn Conn} {f : Fn} (h : r.deref task = some f)
    (func : Fn) : (r.bindIn task.table task.func.key func).deref task = some func := by
  rw [deref, bindIn, setMap_map_self]
  exact RefMap.deref_assign_self h func

/-- A queued task whose entry is unbound holds a dangling reference. -/
theorem deref_unbindIn_self (task : RouteTask Fn Conn) :
    (r.unbindIn task.table task.func.key).deref task = none := by
  rw [deref, unbindIn, setMap_map_self]
  exact RefMap.deref_erase_self _ _

/-- What a route call does: nothing, or it appends one task for the bound function. -/
theorem route_cases {protocol body : Str} {mode : CallMode} {conn : Conn}
    {r' : Router Fn Conn} {ok : Bool} (h : r.route protocol body mode conn = some (r', ok)) :
    (r' = r ∧ ok = false)
    ∨ ∃ t node, (r.map t).find protocol = some node ∧ ok = true
        ∧ r' = { r with taskQueue :=
            r.taskQueue ++ [⟨t, ⟨protocol, node.id⟩, body, conn, node.value⟩] } := by
  have routeIn_cases : ∀ t, r.routeIn t protocol body conn = some (r', ok) →
      (r' = r ∧ ok = false)
      ∨ ∃ t node, (r.map t).find protocol = some node ∧ ok = true
          ∧ r' = { r with taskQueue :=
              r.taskQueue ++ [⟨t, ⟨protocol, node.id⟩, body, conn, node.value⟩] } := by
    intro t ht
    rw [routeIn] at ht
    split at ht
    · cases ht
      exact Or.inl ⟨rfl, rfl⟩
    · rename_i node hnode
      obtain ⟨r'', hadd, heq⟩ := Option.map_eq_some_iff.mp ht
      cases heq
      rw [addTask] at hadd
      obtain ⟨-, hr⟩ := Option.ite_none_left_eq_some.mp hadd
      exact Or.inr ⟨t, node, hnode, rfl, (Option.some.inj hr).symm⟩
  rw [route] at h
  split at h
  · exact routeIn_cases _ h
  · split at h
    · exact routeIn_cases _ h
    · cases h
      exact Or.inl ⟨rfl, rfl⟩

/-- What a worker does: it takes the oldest task and calls what its reference leads to. -/
theorem work_cases {r' : Router Fn Conn} (h : r.work = some r') :
    ∃ task rest, r.taskQueue = task :: rest
      ∧ r' = { r with taskQueue := rest, ran := r.ran ++ [(task, r.deref task)] } := by
  rw [work] at h
  split at h
  · cases h
  · rename_i task rest hq
    cases h
    exact ⟨task, rest, hq, rfl⟩

end Router

/-! ## Undisturbed runs -/

/-- Every queued task still finds the function it was routed to. -/
structure Faithful (r : Router Fn Conn) : Prop where
  queue : ∀ task ∈ r.taskQueue, r.deref task = some task.routed
  ran : RunsRouted r

/-- Rebinding to the same function, or where no task is queued, disturbs nothing. -/
theorem Faithful.bindIn {r : Router Fn Conn} (h : Faithful r) {t : Table} {protocol : Str}
    {func : Fn} (hok : ¬ Rebinds r t protocol func) : Faithful (r.bindIn t protocol func) := by
  constructor
  · intro task hmem
    rw [Router.bindIn, Router.setMap_taskQueue] at hmem
    have hd := h.queue task hmem
    by_cases hentry : task.table = t ∧ task.func.key = protocol
    · obtain ⟨rfl, rfl⟩ := hentry
      rw [Router.deref_bindIn_self hd]
      -- the entry held `task.routed`, so it is the function that is bound again
      refine Classical.byContradiction fun hne => ?_
      refine hok ⟨⟨task, hmem, rfl, rfl⟩, ?_⟩
      intro node hnode heq
      rw [RefMap.find_of_deref hd] at hnode
      cases hnode
      exact hne (congrArg some heq.symm)
    · rw [Router.deref_bindIn_ne hentry]
      exact hd
  · rw [RunsRouted, Router.bindIn, Router.setMap_ran]
    exact h.ran

/-- Erasing an entry that no queued task refers to keeps the router faithful. -/
theorem Faithful.unbindIn {r : Router Fn Conn} (h : Faithful r) {t : Table} {protocol : Str}
    (hok : ¬ Queued r t protocol) : Faithful (r.unbindIn t protocol) := by
  constructor
  · intro task hmem
    rw [Router.unbindIn, Router.setMap_taskQueue] at hmem
    rw [Router.deref_unbindIn_ne fun hentry => hok ⟨task, hmem, hentry⟩]
    exact h.queue task hmem
  · rw [RunsRouted, Router.unbindIn, Router.setMap_ran]
    exact h.ran

/-- `route` keeps it faithful: the reference it captures is good when it is made. -/
theorem Faithful.route {r r' : Router Fn Conn} (h : Faithful r) {protocol body : Str}
    {mode : CallMode} {conn : Conn} {ok : Bool}
    (hr : r.route protocol body mode conn = some (r', ok)) : Faithful r' := by
  obtain ⟨rfl, -⟩ | ⟨t, node, hnode, -, rfl⟩ := Router.route_cases hr
  · exact h
  · refine ⟨?_, h.ran⟩
    intro task hmem
    rcases List.mem_append.mp hmem with hold | hnew
    · exact h.queue task hold
    · rw [List.mem_singleton] at hnew
      subst hnew
      exact RefMap.deref_of_find hnode

theorem Faithful.work {r r' : Router Fn Conn} (h : Faithful r) (hr : r.work = some r') :
    Faithful r' := by
  obtain ⟨task, rest, hq, rfl⟩ := Router.work_cases hr
  constructor
  · intro task' hmem
    exact h.queue task' (by rw [hq]; exact List.mem_cons_of_mem _ hmem)
  · intro e hmem
    rcases List.mem_append.mp hmem with hold | hnew
    · exact h.ran e hold
    · rw [List.mem_singleton] at hnew
      subst hnew
      exact h.queue task (by rw [hq]; exact List.mem_cons_self)

/-- **THE STEP LEMMA**: whatever leaves the entries of queued tasks alone keeps the router
    faithful. -/
theorem Faithful.step {r r' : Router Fn Conn} {a : Act Fn Conn} (h : Faithful r)
    (hok : ¬ Disturbs r a) (hs : r.step a = some r') : Faithful r' := by
  cases a with
  | bind protocol func =>
      cases hs
      exact h.bindIn hok
  | bindRaw protocol func =>
      cases hs
      exact h.bindIn hok
  | unbind protocol =>
      cases hs
      exact h.unbindIn hok
  | unbindRaw protocol =>
      cases hs
      exact h.unbindIn hok
  | route protocol body mode conn =>
      obtain ⟨⟨r'', ok⟩, hroute, rfl⟩ := Option.map_eq_some_iff.mp hs
      exact h.route hroute
  | work => exact h.work hs

/-- In every run without a disturbing step, the router is faithful. -/
theorem faithful_of_reaches {r : Router Fn Conn}
    (h : Reaches (routerSystem Fn Conn) (fun r a => ¬ Disturbs r a) r) : Faithful r := by
  refine h.invariant ?_ ?_
  · rintro r rfl
    exact ⟨fun task hmem => (nomatch hmem), fun e hmem => (nomatch hmem)⟩
  · intro r a r' hI hok hs
    exact hI.step hok hs

/-! ## A disturbed task runs something else -/

/-- Workers that take the whole queue run every task on what its reference sees. -/
theorem exec_work (tasks : List (RouteTask Fn Conn)) :
    ∀ r : Router Fn Conn, r.taskQueue = tasks →
      exec (routerSystem Fn Conn) r (tasks.map fun _ => .work)
        = some { r with
            taskQueue := [], ran := r.ran ++ tasks.map fun task => (task, r.deref task) } := by
  induction tasks with
  | nil =>
      intro r hq
      rw [List.map_nil, List.map_nil, List.append_nil, ← hq]
      rfl
  | cons task rest ih =>
      intro r hq
      have hstep : (routerSystem Fn Conn).step r .work
          = some { r with taskQueue := rest, ran := r.ran ++ [(task, r.deref task)] } := by
        show r.work = _
        rw [Router.work, hq]
      rw [List.map_cons, exec_cons hstep (ih _ rfl)]
      simp only [List.append_assoc, List.singleton_append, List.map_cons]
      rfl

/-- A queued task that no longer finds its function will run something else, or nothing. -/
theorem runs_other {r : Router Fn Conn} {task : RouteTask Fn Conn} (hmem : task ∈ r.taskQueue)
    (hne : r.deref task ≠ some task.routed) :
    ∃ r', Leads (routerSystem Fn Conn) r r' ∧ ¬ RunsRouted r' := by
  refine ⟨_, ⟨_, exec_work r.taskQueue r rfl⟩, ?_⟩
  intro hrun
  refine hne (hrun (task, r.deref task) ?_)
  exact List.mem_append_right _ (List.mem_map.mpr ⟨task, hmem, rfl⟩)

/-- A disturbing step leaves a queued task without its function. -/
theorem disturbed {r r' : Router Fn Conn} {a : Act Fn Conn} (h : Faithful r)
    (ha : Disturbs r a) (hs : r.step a = some r') :
    ∃ task ∈ r'.taskQueue, r'.deref task ≠ some task.routed := by
  have hbind : ∀ {t protocol func}, Rebinds r t protocol func →
      ∃ task ∈ (r.bindIn t protocol func).taskQueue,
        (r.bindIn t protocol func).deref task ≠ some task.routed := by
    rintro t protocol func ⟨⟨task, hmem, rfl, rfl⟩, hother⟩
    have hd := h.queue task hmem
    refine ⟨task, by rw [Router.bindIn, Router.setMap_taskQueue]; exact hmem, ?_⟩
    rw [Router.deref_bindIn_self hd]
    intro heq
    exact hother _ (RefMap.find_of_deref hd) (Option.some.inj heq).symm
  have hunbind : ∀ {t protocol}, Queued r t protocol →
      ∃ task ∈ (r.unbindIn t protocol).taskQueue,
        (r.unbindIn t protocol).deref task ≠ some task.routed := by
    rintro t protocol ⟨task, hmem, rfl, rfl⟩
    refine ⟨task, by rw [Router.unbindIn, Router.setMap_taskQueue]; exact hmem, ?_⟩
    rw [Router.deref_unbindIn_self]
    exact nofun
  cases a with
  | bind protocol func =>
      cases hs
      exact hbind ha
  | bindRaw protocol func =>
      cases hs
      exact hbind ha
  | unbind protocol =>
      cases hs
      exact hunbind ha
  | unbindRaw protocol =>
      cases hs
      exact hunbind ha
  | route | work => exact ha.elim

/-- **ROUTED AND RUN**: in every run that leaves the entries of queued tasks alone each task runs
    the function it was routed to, and after the first step that does not, the run can go on so
    that some task runs another function or a dangling reference. -/
theorem runs_routed_of_undisturbed (Fn Conn : Type) :
    (∀ r, Reaches (routerSystem Fn Conn) (fun r a => ¬ Disturbs r a) r → RunsRouted r)
    ∧ ∀ r a r', Reaches (routerSystem Fn Conn) (fun r a => ¬ Disturbs r a) r →
        Disturbs r a → r.step a = some r' →
        ∃ r'', Leads (routerSystem Fn Conn) r' r'' ∧ ¬ RunsRouted r'' := by
  refine ⟨fun r h => (faithful_of_reaches h).ran, ?_⟩
  intro r a r' hr ha hs
  obtain ⟨task, hmem, hne⟩ := disturbed (faithful_of_reaches hr) ha hs
  exact runs_other hmem hne

/-- A task routed to handler `0` runs it, its entry bound to it again meanwhile; with the entry
    rebound to handler `1` it does not. -/
theorem runs_routed_of_undisturbed_at_rebind :
    (∃ r, exec (routerSystem Nat Unit) .empty
        [.bind [] 0, .route [] [] .nonRaw (), .bind [] 0, .work] = some r
      ∧ r.ran.map Prod.snd = [some 0] ∧ RunsRouted r)
    ∧ ∃ r r', exec (routerSystem Nat Unit) .empty
        [.bind [] 0, .route [] [] .nonRaw (), .bind [] 1] = some r
      ∧ Leads (routerSystem Nat Unit) r r' ∧ ¬ RunsRouted r' := by
  have hbind : Reaches (routerSystem Nat Unit) (fun r a => ¬ Disturbs r a)
      (Router.empty.bind [] 0) :=
    (Reaches.start rfl).step (a := .bind [] 0) (fun h => nomatch h.1) rfl
  have hroute := hbind.step (a := .route [] [] .nonRaw ()) id rfl
  have hagain := hroute.step (a := .bind [] 0)
    (by rintro ⟨-, hother⟩; exact hother _ rfl rfl) rfl
  have hwork := hagain.step (a := .work) id rfl
  obtain ⟨r', hr'⟩ := (runs_routed_of_undisturbed Nat Unit).2 _ (.bind [] 1) _ hroute
    ⟨⟨_, List.mem_singleton_self _, rfl, rfl⟩, by rintro node ⟨⟩; exact nofun⟩ rfl
  exact ⟨⟨_, rfl, rfl, (runs_routed_of_undisturbed Nat Unit).1 _ hwork⟩, _, r', rfl, hr'⟩

/-- Between routing and running, `bind` swaps the function of the queued task and `unbind` leaves
    it with a dangling reference. -/
theorem queued_task_loses_function :
    (∃ r, exec (routerSystem Nat Unit) .empty
        [.bind [] 0, .route [] [] .nonRaw (), .bind [] 1, .work] = some r
      ∧ r.ran.map Prod.snd = [some 1] ∧ ¬ RunsRouted r)
    ∧ ∃ r, exec (routerSystem Nat Unit) .empty
        [.bind [] 0, .route [] [] .nonRaw (), .unbind [], .work] = some r
      ∧ r.ran.map Prod.snd = [none] ∧ ¬ RunsRouted r := by
  refine ⟨⟨_, rfl, rfl, ?_⟩, ⟨_, rfl, rfl, ?_⟩⟩
  · intro h
    exact nomatch h _ (List.mem_singleton_self _)
  · intro h
    exact nomatch h _ (List.mem_singleton_self _)

end EasyRpcBinding
