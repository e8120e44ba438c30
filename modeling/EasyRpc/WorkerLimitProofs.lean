import EasyRpc.RoutingProofs
import EasyRpc.ThrowingProofs

/-! # The number of workers — servers that share one pool

    `server::run` starts the workers of the process-wide router before it opens its acceptor.
    `init_thread_num` compares the number it is asked for with `max_thread_size`, not what the
    pool holds by then, and nothing takes the workers back when `listen` throws: a second server,
    or a second attempt of the same one, adds its workers to those that are there.

    The pool stays within the limit, and throwing runs leave it as it was, exactly as long as each
    run that starts workers finds room for them and can listen (`workers_stay_within_limit`). -/

namespace EasyRpcWorkerLimit

open Transition Throwing EasyRpcThreadPool EasyRpcRouting

variable {Task : Type}

/-- How `server::listen` ends on an acceptor that is not open, with the text of what it throws. -/
inductive Listening where
  | listens
  -- at the address, or in `acceptor_.open`
  | failsBeforeOpen (what : String)
  -- in `set_option`, `bind` or `listen` of the acceptor
  | failsAfterOpen (what : String)
  deriving DecidableEq

/-- A run that threw, with the number of workers before and after it. -/
structure Thrown where
  before : Nat
  after : Nat
  deriving DecidableEq

/-- The servers of a process, by number, and the pool of the router they share. -/
structure Process (Task : Type) where
  threadpool : ThreadPool Task
  threadNum : Nat → Nat
  acceptorOpen : Nat → Bool
  thrown : List Thrown

namespace Process

/-- The workers of the router's pool. -/
def count (s : Process Task) : Nat := s.threadpool.workers.length

/-- `server::multithreaded`. -/
def multithreaded (s : Process Task) (k num : Nat) : Process Task :=
  { s with threadNum := Function.update s.threadNum k num }

end Process

/-- The number of threads a server was told to start. -/
def threadNum (k : Nat) : Comp (Process Task) Nat := Comp.of fun s => (.ok (s.threadNum k), s)

/-- `router::multithreaded`. -/
def startWorkers (num : Nat) : Comp (Process Task) Unit :=
  Comp.of fun s =>
    match initThreadNum s.threadpool num with
    | .ok p => (.ok (), { s with threadpool := p })
    | .error what => (.error (.std what), s)

/-- `server::listen`; an acceptor that is open cannot be opened again. -/
def listen (k : Nat) (outcome : Listening) : Comp (Process Task) Unit :=
  Comp.of fun s =>
    match outcome with
    | .failsBeforeOpen what => (.error (.std what), s)
    | .failsAfterOpen what =>
        if s.acceptorOpen k then (.error (.std "open: Already open"), s)
        else (.error (.std what),
          { s with acceptorOpen := Function.update s.acceptorOpen k true })
    | .listens =>
        if s.acceptorOpen k then (.error (.std "open: Already open"), s)
        else (.ok (), { s with acceptorOpen := Function.update s.acceptorOpen k true })

/-- `server::run`, up to the first accept. -/
def run (k : Nat) (outcome : Listening) : Comp (Process Task) Unit :=
  threadNum k >>= fun num => startWorkers num >>= fun _ => listen k outcome

/-- The calls of the owners of the servers, and the threads that go on. -/
inductive Act (Task : Type) where
  | multithreaded (k num : Nat)
  | run (k : Nat) (outcome : Listening)
  -- the threads of the pool and those that add tasks go on; nobody stops the router's pool
  | pool (a : EasyRpcThreadPool.Act Task)

namespace Process

/-- The state after `run`, with a note of a run that has thrown. -/
def afterRun (s : Process Task) : Except Exn Unit × Process Task → Process Task
  | (.ok _, s') => s'
  | (.error _, s') => { s' with thrown := s'.thrown ++ [⟨s.count, s'.count⟩] }

/-- One step. An exception of `run` is recorded and ends nothing else. -/
def step (s : Process Task) : Act Task → Option (Process Task)
  | .multithreaded k num => some (s.multithreaded k num)
  | .run k outcome => some (s.afterRun ((EasyRpcWorkerLimit.run k outcome).exec s))
  | .pool .stop | .pool .terminate => none
  | .pool a => (s.threadpool.step a).map fun p => { s with threadpool := p }

end Process

/-- A pool without workers and any number of threads that add tasks; servers with the default of
    one thread. -/
def processSystem : System (Process Task) (Act Task) where
  start s := ∃ m, s = ⟨ThreadPool.initial 0 m, fun _ => 1, fun _ => false, []⟩
  step := Process.step

/-- The pool is within its limit, and no run that threw has changed it. -/
structure WithinLimit (s : Process Task) : Prop where
  limit : s.count ≤ maxThreadSize
  kept : ∀ e ∈ s.thrown, e.after = e.before

/-- A run that starts workers finds room for them, and listens. -/
def RunFits (s : Process Task) : Act Task → Prop
  | .run k outcome =>
      0 < s.threadNum k → s.threadNum k ≤ maxThreadSize →
        s.count + s.threadNum k ≤ maxThreadSize
          ∧ outcome = .listens ∧ s.acceptorOpen k = false
  | _ => True

/-! ## One run -/

/-- Steps of the pool neither add workers nor take any. -/
theorem workers_length_step {p q : ThreadPool Task} {a : EasyRpcThreadPool.Act Task}
    (h : p.step a = some q) : q.workers.length = p.workers.length := by
  cases EasyRpcThreadPool.step_cases h with
  | workerWaits | workerLeaves | workerTakes | workerSleeps | workerEnds | workerWakesNone
  | workerWakes | workerSpurious | producerWakes => exact List.length_set
  | stopNotifies => exact List.length_map _
  | producerCalls | producerDeclined | producerAdmitted | producerWaits | producerPuts
  | producerSleeps | producerWakesNone | producerSpurious | stopCalled | stopStores
  | stopJoins | stopClears => rfl

theorem initThreadNum_of_range {p : ThreadPool Task} {num : Nat} (hpos : 0 < num)
    (hle : num ≤ maxThreadSize) :
    initThreadNum p num = .ok { p with workers := p.workers ++ List.replicate num .lock } := by
  rw [initThreadNum, if_neg]
  omega

theorem initThreadNum_of_not_range {p : ThreadPool Task} {num : Nat}
    (h : ¬ (0 < num ∧ num ≤ maxThreadSize)) : ∃ what, initThreadNum p num = .error what := by
  rw [initThreadNum, if_pos (by omega)]
  exact ⟨_, rfl⟩

/-- `listen` returns on an acceptor that it can open, and touches nothing but the acceptor. -/
theorem listen_cases (k : Nat) (outcome : Listening) (s : Process Task) :
    ∃ acceptorOpen,
      ((outcome = .listens ∧ s.acceptorOpen k = false)
        ∧ (listen k outcome).exec s = (.ok (), { s with acceptorOpen := acceptorOpen }))
      ∨ (¬ (outcome = .listens ∧ s.acceptorOpen k = false)
        ∧ ∃ e, (listen k outcome).exec s
          = (.error e, { s with acceptorOpen := acceptorOpen })) := by
  rw [listen, exec_of]
  cases outcome with
  | failsBeforeOpen what => exact ⟨s.acceptorOpen, Or.inr ⟨(fun h => nomatch h.1), _, rfl⟩⟩
  | failsAfterOpen what =>
      dsimp only
      split
      · exact ⟨s.acceptorOpen, Or.inr ⟨(fun h => nomatch h.1), _, rfl⟩⟩
      · exact ⟨_, Or.inr ⟨(fun h => nomatch h.1), _, rfl⟩⟩
  | listens =>
      dsimp only
      split
      · rename_i hopen
        refine ⟨s.acceptorOpen, Or.inr ⟨?_, _, rfl⟩⟩
        rintro ⟨-, hclosed⟩
        rw [hclosed] at hopen
        exact nomatch hopen
      · rename_i hclosed
        exact ⟨_, Or.inl ⟨⟨rfl, Bool.eq_false_iff.mpr hclosed⟩, rfl⟩⟩

theorem run_exec (k : Nat) (outcome : Listening) (s : Process Task) :
    (run k outcome).exec s
      = (startWorkers (s.threadNum k) >>= fun _ => listen k outcome).exec s := by
  have hread : (threadNum k).exec s = (.ok (s.threadNum k), s) := rfl
  rw [run, exec_bind_ok hread]

/-- A run with a number of threads out of range throws and changes nothing. -/
theorem afterRun_of_not_range {s : Process Task} {k : Nat} (outcome : Listening)
    (h : ¬ (0 < s.threadNum k ∧ s.threadNum k ≤ maxThreadSize)) :
    s.afterRun ((run k outcome).exec s)
      = { s with thrown := s.thrown ++ [⟨s.count, s.count⟩] } := by
  obtain ⟨what, hinit⟩ := initThreadNum_of_not_range (p := s.threadpool) h
  have hstart : (startWorkers (s.threadNum k)).exec s = (.error (.std what), s) := by
    rw [startWorkers, exec_of, hinit]
  rw [run_exec, exec_bind_error hstart]
  rfl

/-- Any other run adds its workers, whether it listens or throws. -/
theorem afterRun_of_range {s : Process Task} {k : Nat} (outcome : Listening)
    (hpos : 0 < s.threadNum k) (hle : s.threadNum k ≤ maxThreadSize) :
    (s.afterRun ((run k outcome).exec s)).count = s.count + s.threadNum k
    ∧ (s.afterRun ((run k outcome).exec s)).thrown
      = if outcome = .listens ∧ s.acceptorOpen k = false then s.thrown
        else s.thrown ++ [⟨s.count, s.count + s.threadNum k⟩] := by
  have hstart : (startWorkers (s.threadNum k)).exec s = (.ok (), { s with
      threadpool := { s.threadpool with
        workers := s.threadpool.workers ++ List.replicate (s.threadNum k) .lock } }) := by
    rw [startWorkers, exec_of, initThreadNum_of_range hpos hle]
  have hcount : (s.threadpool.workers ++ List.replicate (s.threadNum k) WorkerPc.lock).length
      = s.count + s.threadNum k := by
    rw [List.length_append, List.length_replicate]
    rfl
  rw [run_exec, exec_bind_ok hstart]
  obtain ⟨acceptorOpen, ⟨hlistens, hlisten⟩ | ⟨hfails, e, hlisten⟩⟩ := listen_cases k outcome
    { s with
      threadpool := { s.threadpool with
        workers := s.threadpool.workers ++ List.replicate (s.threadNum k) .lock } }
  · rw [hlisten, if_pos hlistens]
    exact ⟨hcount, rfl⟩
  · rw [hlisten, if_neg hfails, ← hcount]
    exact ⟨rfl, rfl⟩

/-! ## Runs of a process -/

/-- Within the limit as long as the count and the record stay. -/
theorem WithinLimit.of_same {s s' : Process Task} (h : WithinLimit s) (hcount : s'.count = s.count)
    (hthrown : s'.thrown = s.thrown) : WithinLimit s' := by
  refine ⟨hcount ▸ h.limit, ?_⟩
  rw [hthrown]
  exact h.kept

/-- A run keeps the pool within its limit, and is not a throwing one that has changed it, exactly
    if it fits. -/
theorem afterRun_within_iff {s : Process Task} (h : WithinLimit s) (k : Nat)
    (outcome : Listening) :
    WithinLimit (s.afterRun ((run k outcome).exec s)) ↔ RunFits s (.run k outcome) := by
  by_cases hrange : 0 < s.threadNum k ∧ s.threadNum k ≤ maxThreadSize
  · obtain ⟨hpos, hle⟩ := hrange
    obtain ⟨hcount, hthrown⟩ := afterRun_of_range outcome hpos hle
    constructor
    · intro h' _ _
      refine ⟨hcount ▸ h'.limit, ?_⟩
      by_cases hlistens : outcome = .listens ∧ s.acceptorOpen k = false
      · exact hlistens
      · rw [if_neg hlistens] at hthrown
        have hkept := h'.kept ⟨s.count, s.count + s.threadNum k⟩
          (by rw [hthrown]; exact List.mem_append_right _ List.mem_cons_self)
        have hzero : s.count + s.threadNum k = s.count := hkept
        omega
    · intro hfits
      obtain ⟨hroom, hlistens⟩ := hfits hpos hle
      rw [if_pos hlistens] at hthrown
      refine ⟨hcount ▸ hroom, ?_⟩
      rw [hthrown]
      exact h.kept
  · rw [afterRun_of_not_range outcome hrange]
    refine iff_of_true ⟨h.limit, ?_⟩ (fun hpos hle => absurd ⟨hpos, hle⟩ hrange)
    intro e he
    rcases List.mem_append.mp he with hold | hnew
    · exact h.kept e hold
    · rw [List.mem_singleton] at hnew
      subst hnew
      rfl

/-- **THE STEP LEMMA**: a `run` that fits, and any other step, stays within the limit. -/
theorem WithinLimit.step {s s' : Process Task} {a : Act Task} (h : WithinLimit s)
    (hfits : RunFits s a) (hs : s.step a = some s') : WithinLimit s' := by
  cases a with
  | multithreaded k num =>
      cases hs
      exact h.of_same rfl rfl
  | run k outcome =>
      cases hs
      exact (afterRun_within_iff h k outcome).mpr hfits
  | pool a =>
      have hpool : (s.threadpool.step a).map (fun p => { s with threadpool := p }) = some s' := by
        cases a with
        | stop | terminate => exact nomatch hs
        | worker | wakeWorker | addTask | producer | wakeProducer => exact hs
      obtain ⟨p, hp, rfl⟩ := Option.map_eq_some_iff.mp hpool
      exact h.of_same (workers_length_step hp) rfl

/-- In every run in which each `run` fits, the workers are within the limit. -/
theorem within_of_reaches {s : Process Task} (h : Reaches processSystem RunFits s) :
    WithinLimit s := by
  refine h.invariant ?_ ?_
  · rintro s ⟨m, rfl⟩
    exact ⟨Nat.zero_le _, nofun⟩
  · intro s a s' hI hfits hs
    exact hI.step hfits hs

/-- **WORKERS STAY WITHIN THE LIMIT** in every run of a process in which each call of `run` that
    starts workers has room for them and listens; the first one that does not breaks the law at
    once. -/
theorem workers_stay_within_limit (Task : Type) :
    (∀ s : Process Task, Reaches processSystem RunFits s → WithinLimit s)
    ∧ ∀ (s : Process Task) a s', Reaches processSystem RunFits s → ¬ RunFits s a →
        s.step a = some s' → ¬ WithinLimit s' := by
  constructor
  · intro s h
    exact within_of_reaches h
  · intro s a s' hr hno hs
    cases a with
    | multithreaded | pool => exact absurd trivial hno
    | run k outcome =>
        cases hs
        exact mt (afterRun_within_iff (within_of_reaches hr) k outcome).mp hno

/-- Two servers with 20 threads each. -/
def twoServers : List (Act Nat) :=
  [.multithreaded 0 20, .multithreaded 1 20, .run 0 .listens, .run 1 .listens]

/-- A process before its first `run`, with one worker asked for by each server. -/
def noServers : Process Nat := ⟨ThreadPool.initial 0 1, fun _ => 1, fun _ => false, []⟩

/-- One server with twenty workers is within the limit; one whose `listen` throws has started its
    worker all the same. -/
theorem workers_stay_within_limit_one_server :
    (∃ s, exec processSystem noServers [.multithreaded 0 20, .run 0 .listens] = some s
      ∧ WithinLimit s)
    ∧ ∃ s, exec processSystem noServers [.run 0 (.failsAfterOpen "bind: Address already in use")]
        = some s ∧ ¬ WithinLimit s := by
  have hstart : Reaches processSystem RunFits noServers := Reaches.start ⟨1, rfl⟩
  constructor
  · have hset := hstart.step (a := Act.multithreaded 0 20) trivial rfl
    have hrun := hset.step (a := Act.run 0 .listens) (fun _ _ => ⟨by decide, rfl, rfl⟩) rfl
    exact ⟨_, rfl, (workers_stay_within_limit Nat).1 _ hrun⟩
  · have hfails : ¬ RunFits noServers
        (.run 0 (.failsAfterOpen "bind: Address already in use")) := by
      intro hfits
      exact nomatch (hfits (by decide) (by decide)).2.1
    exact ⟨_, rfl, (workers_stay_within_limit Nat).2 _ _ _ hstart hfails rfl⟩

/-- The pool of two servers with 20 threads each holds 40 workers. -/
theorem two_servers_exceed_limit :
    ∃ s, exec processSystem noServers twoServers = some s ∧ s.count = 40 ∧ ¬ WithinLimit s := by
  refine ⟨_, rfl, rfl, ?_⟩
  intro h
  exact absurd h.limit (by decide)

end EasyRpcWorkerLimit
