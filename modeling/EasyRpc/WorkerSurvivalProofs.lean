import EasyRpc.RouterDispatchProofs
import EasyRpc.ThreadPoolProgressProofs

/-! # What a request can do to its worker

    `run_task` calls its task with no `try` around it, so an exception that leaves the task leaves
    the thread function and ends the process.  Inside the task every layer of the two invoker
    classes has a `catch (std::exception&)`, and every exception that the framework itself throws
    is one.

    So an exception leaves a task exactly when unpacking, the handler or packing throws a value of
    another type (`runTask_throws_iff`).  The clauses themselves call `log_warn`, outside of any
    `try`, and `log_warn` goes through the pointers of `logger_impl`, which are null where `init`
    has failed: then the tasks that log (`runTask_logs_iff`) end the process as well.  In every
    other case, whatever is thrown and whatever becomes of the write, the worker comes back to the
    top of its loop and takes what is queued (`requests_leave_workers`). -/

namespace EasyRpcWorkerSurvival

open Transition ThreadTable Throwing EasyRpcWire EasyRpcConnection EasyRpcDispatch
open EasyRpcThreadPool EasyRpcThreadPoolStop EasyRpcThreadPoolProgress

variable {ep : Easypack} {World Key : Type}

/-- The task of a routed request; `key` names the entry it was routed to. -/
structure Job (Key : Type) where
  key : Key
  body : Str

/-- The pool of a process; whether `logger_impl` has made its two loggers, which takes a directory
    `logs` beside the program (a logger that was made takes every line); and whether the process
    has ended, because an exception has left a `run_task` or a null logger was used. -/
structure Workers (Key : Type) where
  pool : ThreadPool (Job Key)
  loggers : Bool
  terminated : Bool

/-- The pool goes on, or a worker runs the task it has taken. -/
inductive Act (Key World : Type) where
  | pool (a : EasyRpcThreadPool.Act (Job Key))
  -- worker `i` runs its task: what the task finds, and what becomes of its write
  | runTask (i : Nat) (found : TaskState World) (remains : Remains responseHeaderLen)
      (ec : Option String)

namespace Workers

variable (handlers : Key → Handler ep World) (s : Workers Key)

/-- The steps of the pool that do not run a task. -/
def internal : EasyRpcThreadPool.Act (Job Key) → Bool
  | .worker i _ =>
      match s.pool.workers[i]? with
      | some (.run _) => false
      | _ => true
  | _ => true

/-- `task();` of `run_task`. -/
def runTask (i : Nat) (found : TaskState World) (remains : Remains responseHeaderLen)
    (ec : Option String) : Option (Workers Key) :=
  match s.pool.workers[i]? with
  | some (.run job) =>
      let left := ((handlers job.key).runTask job.body remains ec).exec found
      -- a line was logged through a null pointer
      if !s.loggers && left.2.call.log != found.call.log then some { s with terminated := true }
      else
        match left.1 with
        | .ok () => (s.pool.step (.worker i none)).map fun p => { s with pool := p }
        | .error _ => some { s with terminated := true }
  | _ => none

/-- One step of the workers. Nothing happens any more once the process has been terminated. -/
def step (a : Act Key World) : Option (Workers Key) :=
  if s.terminated then none
  else
    match a with
    | .pool a => if s.internal a then (s.pool.step a).map fun p => { s with pool := p } else none
    | .runTask i found remains ec => s.runTask handlers i found remains ec

end Workers

/-- Any number of workers and of threads that route requests to the handlers, with or without
    loggers. -/
def workerSystem (handlers : Key → Handler ep World) : System (Workers Key) (Act Key World) where
  start s := ∃ n m loggers, s = ⟨.initial n m, loggers, false⟩
  step := Workers.step handlers

/-- Building the parser, unpacking an argument, the handler or packing its result throws a value
    that is no `std::exception`. -/
def ThrowsOther (handler : Handler ep World) (body : Str) (w : World) : Prop :=
  handler.request body = .error .other
  ∨ ∃ answer w', handler.request body = .ok answer ∧ answer.exec w = (.error .other, w')

/-- A clause of the task is reached, and calls `log_warn`: building the parser, unpacking an
    argument, the handler, packing or writing its result throws a `std::exception`. -/
def LogsWarning (handler : Handler ep World) (body : Str) (remains : Remains responseHeaderLen)
    (ec : Option String) (found : TaskState World) : Prop :=
  (∃ what, handler.request body = .error (.std what))
  ∨ handler.ThrowsStd body found.call.world
  ∨ ∃ answer result w', handler.request body = .ok answer
    ∧ answer.exec found.call.world = (.ok result, w')
    ∧ writeWarnings found.conn result remains ec ≠ []

/-- The step runs a task that throws a value that is no `std::exception`. -/
def RunsThrower (handlers : Key → Handler ep World) (s : Workers Key) (a : Act Key World) :
    Prop :=
  ∃ i found remains ec job, a = .runTask i found remains ec
    ∧ s.pool.workers[i]? = some (.run job)
    ∧ ThrowsOther (handlers job.key) job.body found.call.world

/-- The step runs a task that logs a warning although the loggers are missing. -/
def LogsInVain (handlers : Key → Handler ep World) (s : Workers Key) (a : Act Key World) : Prop :=
  s.loggers = false
  ∧ ∃ i found remains ec job, a = .runTask i found remains ec
    ∧ s.pool.workers[i]? = some (.run job)
    ∧ LogsWarning (handlers job.key) job.body remains ec found

/-- The steps that the process survives. -/
def Spares (handlers : Key → Handler ep World) (s : Workers Key) (a : Act Key World) : Prop :=
  ¬ RunsThrower handlers s a ∧ ¬ LogsInVain handlers s a

/-! ## One task -/

section OneTask

variable (handler : Handler ep World) (body : Str) (remains : Remains responseHeaderLen)
  (ec : Option String) (found : TaskState World)

/-- **WHAT LEAVES A TASK** is a value that is no `std::exception`, and every such value does. -/
theorem runTask_throws_iff (e : Exn) :
    ((handler.runTask body remains ec).exec found).1 = .error e
      ↔ e = .other ∧ ThrowsOther handler body found.call.world := by
  rw [Handler.runTask_eq, ThrowsOther]
  cases hreq : handler.request body with
  | error e' =>
      rw [respondWith_unparsed]
      cases e' with
      | std what =>
          constructor
          · exact nofun
          · rintro ⟨-, h | ⟨answer, w', h, -⟩⟩ <;> exact nomatch h
      | other =>
          constructor
          · rintro ⟨⟩
            exact ⟨rfl, Or.inl rfl⟩
          · rintro ⟨rfl, -⟩
            rfl
  | ok answer =>
      rcases hexec : answer.exec found.call.world with ⟨e' | result, w⟩
      · cases e' with
        | std what =>
            rw [respondWith_std hexec]
            constructor
            · exact nofun
            · rintro ⟨-, h | ⟨answer', w', h, hexec'⟩⟩
              · exact nomatch h
              · cases h
                rw [hexec] at hexec'
                exact nomatch hexec'
        | other =>
            rw [respondWith_other hexec]
            constructor
            · rintro ⟨⟩
              exact ⟨rfl, Or.inr ⟨answer, w, rfl, hexec⟩⟩
            · rintro ⟨rfl, -⟩
              rfl
      · rw [respondWith_ok hexec]
        constructor
        · exact nofun
        · rintro ⟨-, h | ⟨answer', w', h, hexec'⟩⟩
          · exact nomatch h
          · cases h
            rw [hexec] at hexec'
            exact nomatch hexec'

/-- **WHAT LOGS** in a task is a clause that is reached, and every clause logs. -/
theorem runTask_logs_iff :
    ((handler.runTask body remains ec).exec found).2.call.log ≠ found.call.log
      ↔ LogsWarning handler body remains ec found := by
  rw [Handler.runTask_eq, LogsWarning]
  cases hreq : handler.request body with
  | error e =>
      rw [respondWith_unparsed]
      cases e with
      | std what =>
          refine iff_of_true ?_ (Or.inl ⟨what, rfl⟩)
          exact fun h => List.cons_ne_nil _ _ (List.append_right_eq_self.mp h)
      | other =>
          refine iff_of_false (fun h => h rfl) ?_
          rintro (⟨what, h⟩ | ⟨answer, what, w, h, -⟩ | ⟨answer, result, w, h, -⟩)
          · exact nomatch h
          · exact nomatch hreq.symm.trans h
          · exact nomatch h
  | ok answer =>
      rcases hexec : answer.exec found.call.world with ⟨e | result, w⟩
      · cases e with
        | std what =>
            rw [respondWith_std hexec]
            refine iff_of_true ?_ (Or.inr (Or.inl ⟨answer, what, w, hreq, hexec⟩))
            intro h
            rw [List.append_assoc] at h
            exact List.cons_ne_nil _ _ (List.append_right_eq_self.mp h)
        | other =>
            rw [respondWith_other hexec]
            refine iff_of_false (fun h => h rfl) ?_
            rintro (⟨what, h⟩ | ⟨answer', what, w', h, hexec'⟩
              | ⟨answer', result, w', h, hexec', -⟩)
            · exact nomatch h
            · cases hreq.symm.trans h
              exact nomatch hexec.symm.trans hexec'
            · cases h
              exact nomatch hexec.symm.trans hexec'
      · rw [respondWith_ok hexec, ne_eq, List.append_right_eq_self]
        constructor
        · intro h
          exact Or.inr (Or.inr ⟨answer, result, w, rfl, hexec, h⟩)
        · rintro (⟨what, h⟩ | ⟨answer', what, w', h, hexec'⟩
            | ⟨answer', result', w', h, hexec', hw⟩)
          · exact nomatch h
          · cases hreq.symm.trans h
            exact nomatch hexec.symm.trans hexec'
          · cases h
            cases hexec.symm.trans hexec'
            exact hw

variable {handler body remains ec found}

/-- A task that throws no such value returns. -/
theorem runTask_returns (hno : ¬ ThrowsOther handler body found.call.world) :
    ((handler.runTask body remains ec).exec found).1 = .ok () := by
  rcases h : ((handler.runTask body remains ec).exec found).1 with e | ⟨⟩
  · exact absurd ((runTask_throws_iff handler body remains ec found e).mp h).2 hno
  · rfl

end OneTask

/-! ## Whole runs -/

section Runs

variable {handlers : Key → Handler ep World} {s s' : Workers Key} {a : Act Key World}

/-- A step of the pool, or the end of the process. -/
theorem step_cases (hs : s.step handlers a = some s') :
    s.terminated = false
    ∧ ((s'.terminated = false ∧ ∃ a', s.pool.step a' = some s'.pool)
      ∨ (¬ Spares handlers s a ∧ s' = { s with terminated := true })) := by
  unfold Workers.step at hs
  obtain ⟨hlive, hs⟩ := Option.ite_none_left_eq_some.mp hs
  rw [Bool.not_eq_true] at hlive
  refine ⟨hlive, ?_⟩
  cases a with
  | pool a =>
      obtain ⟨-, hs⟩ := Option.ite_none_right_eq_some.mp hs
      obtain ⟨p, hp, rfl⟩ := Option.map_eq_some_iff.mp hs
      exact Or.inl ⟨hlive, a, hp⟩
  | runTask i found remains ec =>
      simp only [Workers.runTask] at hs
      split at hs
      · rename_i job hrun
        split at hs
        · rename_i hlog
          rw [Bool.and_eq_true, Bool.not_eq_true', bne_iff_ne, runTask_logs_iff] at hlog
          cases hs
          exact Or.inr ⟨fun h => h.2 ⟨hlog.1, i, found, remains, ec, job, rfl, hrun, hlog.2⟩, rfl⟩
        · split at hs
          · obtain ⟨p, hp, rfl⟩ := Option.map_eq_some_iff.mp hs
            exact Or.inl ⟨hlive, _, hp⟩
          · rename_i e hthrow
            cases hs
            have hother := (runTask_throws_iff _ _ _ _ _ _).mp hthrow
            exact Or.inr ⟨fun h => h.1 ⟨i, found, remains, ec, job, rfl, hrun, hother.2⟩, rfl⟩
      · cases hs

/-- A value that is no `std::exception` ends the process. -/
theorem thrower_terminates (ha : RunsThrower handlers s a) (hs : s.step handlers a = some s') :
    s'.terminated = true := by
  obtain ⟨i, found, remains, ec, job, rfl, hrun, hother⟩ := ha
  have hthrow := (runTask_throws_iff (handlers job.key) job.body remains ec found .other).mpr
    ⟨rfl, hother⟩
  unfold Workers.step at hs
  obtain ⟨-, hs⟩ := Option.ite_none_left_eq_some.mp hs
  simp only [Workers.runTask, hrun, hthrow, ite_self] at hs
  cases hs
  rfl

/-- What happens to the pool is a run of the pool. -/
theorem pool_of_reaches {ok : Workers Key → Act Key World → Prop}
    (h : Reaches (workerSystem handlers) ok s) : Reachable poolSystem s.pool := by
  refine h.simulation (J := fun _ => True) Workers.pool (fun _ _ => trivial) ?_ ?_
  · rintro s ⟨n, m, loggers, rfl⟩
    exact ⟨n, m, rfl⟩
  · intro s a s' _ _ hs
    rcases (step_cases hs).2 with ⟨-, a', ha'⟩ | ⟨-, rfl⟩
    · exact Or.inr ⟨a', ha'⟩
    · exact Or.inl rfl

theorem live_of_reaches
    (h : Reaches (workerSystem handlers) (Spares handlers) s) : s.terminated = false := by
  refine h.invariant (I := fun s => s.terminated = false) ?_ ?_
  · rintro s ⟨n, m, loggers, rfl⟩
    rfl
  · intro s a s' _ hspares hs
    rcases (step_cases hs).2 with ⟨hlive, -⟩ | ⟨hends, -⟩
    · exact hlive
    · exact absurd hspares hends

end Runs

/-! ## The worker goes on -/

section Continues

variable {handlers : Key → Handler ep World} {s : Workers Key} {i : Nat}

/-- What the running of a task found, and what became of its write. -/
structure Outcome (World : Type) where
  found : TaskState World
  remains : Remains responseHeaderLen
  ec : Option String

/-- What a task found and did. -/
def outcomeOf : Act Key World → Option (Outcome World)
  | .runTask _ found remains ec => some ⟨found, remains, ec⟩
  | .pool _ => none

/-- The task ends and the process goes on. -/
def Spared (handlers : Key → Handler ep World) (loggers : Bool) (job : Job Key)
    (outcome : Outcome World) : Prop :=
  ¬ ThrowsOther (handlers job.key) job.body outcome.found.call.world
  ∧ (loggers = true
    ∨ ¬ LogsWarning (handlers job.key) job.body outcome.remains outcome.ec outcome.found)

/-- A step of the pool alone, while the process lives. -/
theorem pool_step (handlers : Key → Handler ep World) {a : EasyRpcThreadPool.Act (Job Key)}
    {p : ThreadPool (Job Key)} (hlive : s.terminated = false) (hint : s.internal a = true)
    (hp : s.pool.step a = some p) :
    (workerSystem handlers).step s (.pool a) = some { s with pool := p } := by
  show s.step handlers (.pool a) = _
  unfold Workers.step
  rw [if_neg (Bool.not_eq_true _ ▸ hlive)]
  show (if s.internal a then (s.pool.step a).map fun p => { s with pool := p } else none) = _
  rw [if_pos hint, hp]
  rfl

/-- **THE WORKER SURVIVES** its task, whatever it finds, unless it throws no `std::exception` or
    logs without a logger. -/
theorem runTask_step {job : Job Key} {outcome : Outcome World}
    (hlive : s.terminated = false) (hrun : s.pool.workers[i]? = some (.run job))
    (hspared : Spared handlers s.loggers job outcome) :
    (workerSystem handlers).step s (.runTask i outcome.found outcome.remains outcome.ec)
      = some { s with pool := s.pool.setWorker i .notify } := by
  have hend : s.pool.step (.worker i none) = some (s.pool.setWorker i .notify) := by
    show s.pool.workerStep i none = _
    rw [ThreadPool.workerStep, hrun]
  have hlog : ¬ (!s.loggers && (((handlers job.key).runTask job.body outcome.remains
      outcome.ec).exec outcome.found).2.call.log != outcome.found.call.log) = true := by
    rw [Bool.and_eq_true, Bool.not_eq_true', bne_iff_ne, runTask_logs_iff]
    rintro ⟨hnone, hlogs⟩
    rcases hspared.2 with hmade | hquiet
    · exact Bool.false_ne_true (hnone.symm.trans hmade)
    · exact hquiet hlogs
  show s.step handlers (.runTask i outcome.found outcome.remains outcome.ec) = _
  unfold Workers.step
  rw [if_neg (Bool.not_eq_true _ ▸ hlive)]
  simp only [Workers.runTask, hrun]
  rw [if_neg hlog]
  simp only [runTask_returns hspared.1, hend, Option.map_some]

/-- The mutex becomes free with a task queued: only a producer can hold it, at its wait. -/
theorem mutex_released (hr : Reachable (workerSystem handlers) s)
    (hlive : s.terminated = false) (hqueue : s.pool.taskQueue ≠ []) :
    ∃ as t, exec (workerSystem handlers) s as = some t ∧ as.filterMap outcomeOf = []
      ∧ t.terminated = false ∧ t.loggers = s.loggers ∧ t.pool.taskQueueMutex = none
      ∧ t.pool.workers = s.pool.workers ∧ t.pool.taskQueue = s.pool.taskQueue
      ∧ t.pool.popped = s.pool.popped ∧ t.pool.isStopThreadpool = s.pool.isStopThreadpool := by
  have hpool := pool_of_reaches hr
  rcases (mutexInv_of_reaches hpool).released with hfree | ⟨k, hk, -⟩ | ⟨j, task, -, hsleep⟩
  · exact ⟨[], s, rfl, rfl, hlive, rfl, hfree, rfl, rfl, rfl, rfl⟩
  · exact absurd ((waitInv_of_reaches hpool).worker k hk).2 hqueue
  · have hp : s.pool.step (.producer j none) = some _ := hsleep
    exact ⟨[.pool (.producer j none)], _, exec_cons (pool_step handlers hlive rfl hp) rfl, rfl,
      hlive, rfl, rfl, rfl, rfl, rfl, rfl⟩

/-- **THE NEXT TASK IS TAKEN** by the worker that has ended the one before. -/
theorem takes_next {job : Job Key} {rest : List (Job Key)}
    (hr : Reachable (workerSystem handlers) s) (hlive : s.terminated = false)
    (hi : s.pool.workers[i]? = some .notify) (hrun : s.pool.isStopThreadpool = false)
    (hqueue : s.pool.taskQueue = job :: rest) :
    ∃ as t, exec (workerSystem handlers) s as = some t ∧ as.filterMap outcomeOf = []
      ∧ t.terminated = false ∧ t.loggers = s.loggers ∧ t.pool.workers[i]? = some (.run job)
      ∧ t.pool.isStopThreadpool = false ∧ t.pool.taskQueue = rest
      ∧ t.pool.popped = s.pool.popped ++ [job] := by
  -- the worker notifies
  obtain ⟨w, q, hstep, hover, hq, hpopped, -⟩ := notify_step hi
  have hint : s.internal (.worker i w) = true := by
    show (match s.pool.workers[i]? with
      | some (.run _) => false
      | _ => true) = true
    rw [hi]
  have hnotify := pool_step handlers hlive hint hstep
  have hr1 : Reachable (workerSystem handlers) { s with pool := q } := hr.step hnotify
  -- whoever holds the mutex lets it go
  have hne : q.taskQueue ≠ [] := by
    rw [hq, hqueue]
    exact List.cons_ne_nil job rest
  obtain ⟨as, u, hrelease, hnone, hlive2, hloggers2, hfree, hworkers2, hq2, hpopped2, hflag2⟩ :=
    mutex_released hr1 hlive hne
  -- and the worker takes the front of the queue
  have hworkers : u.pool.workers = s.pool.workers.set i .lock := hworkers2.trans hover.workers
  have hrun2 : u.pool.isStopThreadpool = false := hflag2.trans (hover.flag.trans hrun)
  have hqueue2 : u.pool.taskQueue = job :: rest := hq2.trans (hq.trans hqueue)
  have hlock : u.pool.workers[i]? = some .lock := by
    rw [hworkers]
    exact getElem?_set_moved hi
  have hint2 : u.internal (.worker i none) = true := by
    show (match u.pool.workers[i]? with
      | some (.run _) => false
      | _ => true) = true
    rw [hlock]
  have htake := pool_step handlers hlive2 hint2
    (take_step hlock (Or.inl rfl) hfree hrun2 hqueue2)
  have hexec : exec (workerSystem handlers) s
      (.pool (.worker i w) :: (as ++ [.pool (.worker i none)])) = some _ :=
    exec_cons hnotify (exec_append hrelease (exec_cons htake rfl))
  refine ⟨_, _, hexec, ?_, hlive2, hloggers2, getElem?_set_moved hlock, hrun2, rfl, ?_⟩
  · rw [List.filterMap_cons_none rfl, List.filterMap_append, hnone]
    rfl
  · show u.pool.popped ++ [job] = _
    rw [show u.pool.popped = s.pool.popped from hpopped2.trans hpopped]

/-- What each of the tasks finds, and what becomes of its write: the process goes on. -/
def Outcomes (handlers : Key → Handler ep World) (loggers : Bool) (jobs : List (Job Key))
    (outcomes : List (Outcome World)) : Prop :=
  List.Forall₂ (Spared handlers loggers) jobs outcomes

/-- **ALL TASKS ARE TAKEN**: whatever the running task and the queued ones find, the worker runs
    one after the other until the queue is empty. -/
theorem takes_all {queue : List (Job Key)} : ∀ {s : Workers Key} {job : Job Key}
    {outcomes : List (Outcome World)},
    Reachable (workerSystem handlers) s → s.terminated = false →
    s.pool.workers[i]? = some (.run job) → s.pool.isStopThreadpool = false →
    s.pool.taskQueue = queue → Outcomes handlers s.loggers (job :: queue) outcomes →
    ∃ as t, exec (workerSystem handlers) s as = some t ∧ as.filterMap outcomeOf = outcomes
      ∧ t.terminated = false ∧ t.pool.workers[i]? = some .notify ∧ t.pool.taskQueue = []
      ∧ t.pool.popped = s.pool.popped ++ queue := by
  induction queue with
  | nil =>
      intro s job outcomes hr hlive hi hrun hqueue hout
      obtain _ | ⟨hspared, ⟨⟩⟩ := hout
      exact ⟨[.runTask i _ _ _], _, exec_cons (runTask_step hlive hi hspared) rfl, rfl, hlive,
        getElem?_set_moved hi, hqueue, (List.append_nil _).symm⟩
  | cons next rest ih =>
      intro s job outcomes hr hlive hi hrun hqueue hout
      obtain _ | ⟨hspared, hlater⟩ := hout
      rename_i outcome later
      have hend := runTask_step hlive hi hspared
      obtain ⟨as, u, htake, hnone, hlive2, hloggers2, hi2, hrun2, hqueue2, hpopped2⟩ :=
        takes_next (hr.step hend) hlive (getElem?_set_moved hi) hrun hqueue
      have hr2 : Reachable (workerSystem handlers) u := (hr.step hend).exec htake
      obtain ⟨bs, t, hrest, hbs, hlive3, hi3, hempty, hpopped3⟩ :=
        ih hr2 hlive2 hi2 hrun2 hqueue2 (hloggers2 ▸ hlater)
      refine ⟨.runTask i outcome.found outcome.remains outcome.ec :: (as ++ bs), t,
        exec_cons hend (exec_append htake hrest), ?_, hlive3, hi3, hempty, ?_⟩
      · show outcome :: (as ++ bs).filterMap outcomeOf = _
        rw [List.filterMap_append, hnone, hbs]
        rfl
      · rw [hpopped3, hpopped2, List.append_assoc]
        rfl

end Continues

/-- **REQUESTS LEAVE THE WORKERS ALIVE**: in a run whose tasks throw nothing but
    `std::exception`s, and log nothing where the loggers are missing, no exception leaves
    `run_task`, no worker leaves it before the stop, and a worker that runs a task goes on to take
    every queued one, whatever the tasks find and whatever becomes of their writes.  A value of
    another type ends the process. -/
theorem requests_leave_workers (handlers : Key → Handler ep World) :
    (∀ s : Workers Key, Reaches (workerSystem handlers) (Spares handlers) s →
        s.terminated = false
        ∧ (s.pool.isStopThreadpool = false →
          (∀ pc ∈ s.pool.workers, pc.isDone = false)
          ∧ ∀ (i : Nat) (job : Job Key) outcomes, s.pool.workers[i]? = some (.run job) →
              Outcomes handlers s.loggers (job :: s.pool.taskQueue) outcomes →
              ∃ as t, exec (workerSystem handlers) s as = some t
                ∧ as.filterMap outcomeOf = outcomes ∧ t.terminated = false
                ∧ t.pool.workers[i]? = some .notify ∧ t.pool.taskQueue = []
                ∧ t.pool.popped = s.pool.popped ++ s.pool.taskQueue))
    ∧ ∀ (s s' : Workers Key) (a : Act Key World), RunsThrower handlers s a →
        s.step handlers a = some s' → s'.terminated = true := by
  constructor
  · intro s h
    have hlive := live_of_reaches h
    refine ⟨hlive, ?_⟩
    intro hrun
    refine ⟨noneLeft_of_reaches (pool_of_reaches h) hrun, ?_⟩
    intro i job outcomes hi hout
    exact takes_all (h.mono fun _ _ _ => trivial) hlive hi hrun rfl hout
  · intro s s' a ha hs
    exact thrower_terminates ha hs

/-- A handler that throws a number. -/
def thrower : Handler bytePack Unit :=
  .nonMemberRaw (.void fun _ => fromExcept (.error .other))

/-- A handler by the name it is bound to. -/
def byName : Bool → Handler bytePack Unit
  | true => echo
  | false => thrower

/-- One worker runs a request without its argument, and one with an argument is queued. -/
def firstRuns : Workers Bool where
  pool := {
    isStopThreadpool := false
    taskQueue := [⟨true, [7]⟩]
    taskQueueMutex := none
    workers := [.run ⟨true, []⟩]
    producers := [.notify, .notify]
    stopper := .idle
    enqueued := [⟨true, []⟩, ⟨true, [7]⟩]
    popped := [⟨true, []⟩] }
  loggers := true
  terminated := false

/-- The first request's argument is missing and its write fails; the second is taken all the
    same.  A handler that throws a number ends the process. -/
theorem requests_leave_workers_after_error :
    (∃ as t, exec (workerSystem byName) firstRuns as = some t ∧ t.terminated = false
      ∧ t.pool.taskQueue = [] ∧ t.pool.popped = [⟨true, []⟩, ⟨true, [7]⟩])
    ∧ ∀ s', Workers.step byName { firstRuns with
          pool := firstRuns.pool.setWorker 0 (.run ⟨false, []⟩) }
        (.runTask 0 ⟨⟨(), [], []⟩, .create 0⟩ .kept none) = some s' → s'.terminated = true := by
  let found : TaskState Unit := ⟨⟨(), [], []⟩, .create 0⟩
  have hspared : ∀ (body : Str) (ec : Option String),
      ((echo.runTask body .kept none).exec found).1 = .ok () →
        Spared byName true ⟨true, body⟩ ⟨found, .kept, ec⟩ := by
    intro body ec hok
    refine ⟨?_, Or.inl rfl⟩
    intro hother
    have hthrow := (runTask_throws_iff echo body .kept none found .other).mpr ⟨rfl, hother⟩
    rw [hok] at hthrow
    exact nomatch hthrow
  let ok : Workers Bool → Act Bool Unit → Prop := Spares byName
  have hpool : ∀ s (a : EasyRpcThreadPool.Act (Job Bool)), ok s (.pool a) := by
    intro s a
    constructor
    · rintro ⟨_, _, _, _, _, h, -⟩
      exact nomatch h
    · rintro ⟨-, _, _, _, _, _, h, -⟩
      exact nomatch h
  have hstart : Reaches (workerSystem byName) ok ⟨.initial 1 2, true, false⟩ :=
    Reaches.start ⟨1, 2, true, rfl⟩
  have h1 := hstart.step (a := .pool (.addTask 0 ⟨true, []⟩)) (hpool _ _) rfl
  have h2 := h1.step (a := .pool (.producer 0 none)) (hpool _ _) rfl
  have h3 := h2.step (a := .pool (.producer 0 none)) (hpool _ _) rfl
  have h4 := h3.step (a := .pool (.addTask 1 ⟨true, [7]⟩)) (hpool _ _) rfl
  have h5 := h4.step (a := .pool (.producer 1 none)) (hpool _ _) rfl
  have h6 := h5.step (a := .pool (.producer 1 none)) (hpool _ _) rfl
  have h7 := h6.step (a := .pool (.worker 0 none)) (hpool _ _) rfl
  have hgood := ((requests_leave_workers byName).1 firstRuns h7).2 rfl
  obtain ⟨as, t, hexec, -, hlive, -, hempty, hpopped⟩ := hgood.2 0 ⟨true, []⟩
    [⟨found, .kept, some "broken pipe"⟩, ⟨found, .kept, none⟩] rfl
    (.cons (hspared [] _ rfl) (.cons (hspared [7] _ rfl) .nil))
  refine ⟨⟨as, t, hexec, hlive, hempty, hpopped⟩, ?_⟩
  intro s' hs
  refine (requests_leave_workers byName).2 _ s' _ ?_ hs
  exact ⟨0, found, .kept, none, ⟨false, []⟩, rfl, rfl, Or.inr ⟨_, _, rfl, rfl⟩⟩

/-- The handler throws a number, no clause takes it, and the process ends. -/
theorem thrower_ends_process :
    ¬ ∀ s : Workers Unit, Reachable (workerSystem fun _ => thrower) s → s.terminated = false := by
  intro h
  have hstart : Reachable (workerSystem fun _ : Unit => thrower) ⟨.initial 1 1, true, false⟩ :=
    Reachable.start ⟨1, 1, true, rfl⟩
  have hthrown : Reachable (workerSystem fun _ : Unit => thrower) ⟨_, true, true⟩ :=
    hstart.exec (show exec (workerSystem fun _ : Unit => thrower) _
      [.pool (.addTask 0 ⟨(), []⟩), .pool (.producer 0 none), .pool (.producer 0 none),
        .pool (.worker 0 none), .runTask 0 ⟨⟨(), [], []⟩, .create 0⟩ .kept none]
        = some ⟨_, true, true⟩ from rfl)
  exact nomatch h _ hthrown

end EasyRpcWorkerSurvival
