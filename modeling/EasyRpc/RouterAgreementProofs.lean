import EasyRpc.AtomicRoutingProofs
import EasyRpc.ServerStepProofs
import EasyRpc.ServerShutdownProofs
import EasyRpc.TaskRelabelProofs
import EasyRpc.WorkerLimitProofs

/-! # One router, one process — the models agree

    The server, the router and the process that runs them are each modelled with what the results
    about them need.  This module relates them:

    * what the server does with its connections and its pool is a run of the router of
      `EasyRpcRouting`, the look-up of `route` and the task included (`server_routes`);
    * what the process does with its servers, as long as it does not stop the router, is a run of
      the process of `EasyRpcWorkerLimit` with the same workers (`process_starts_workers`).

    The tasks of the models have different fields; their pools agree on what the tasks have in
    common. -/

namespace EasyRpcRouterAgreement

open Transition ReferenceMap EasyRpcWire EasyRpcThreadPool EasyRpcThreadPoolProgress
open EasyRpcTaskRelabel EasyRpcConnection EasyRpcDispatch Throwing
open EasyRpcAtomicRouting (modeOf)
open EasyRpcBinding (Table)
open EasyRpcRouting (PoolTask RouteCall tableOf)
open EasyRpcServer (Bindings RequestTask Accepted Server serverSystem)

/-! ## The server and the router -/

section Server

variable {ep : Easypack} {World : Type}

/-- What the tasks of the two models have in common. -/
structure Ask (ep : Easypack) (World : Type) where
  entry : Entry ep World
  body : Str
  conn : Nat

/-- What a task of the server asks for. -/
def askOfRequest (task : RequestTask ep World) : Ask ep World := ⟨task.entry, task.body, task.conn⟩

/-- What a task of the router asks for: the function it was routed to, the body and the
    connection. -/
def askOfRouted (task : PoolTask (Entry ep World) Nat) : Ask ep World :=
  ⟨task.task.routed, task.task.body, task.task.conn⟩

/-- The maps of the router hold what the server is bound to: `Bindings.find` is the lookup of
    `route`. -/
def Holds (b : Bindings ep World) (maps : Table → RefMap Str (Entry ep World)) : Prop :=
  ∀ mode protocol, b.find mode protocol
    = (tableOf mode).bind fun t => ((maps t).find protocol).map Node.value

/-- The handler of connection `n` is inside its call of `route`, on I/O thread `j`. -/
def InRoute (s : Server ep World) (j n : Nat) : Prop :=
  ∃ a, s.conns[n]? = some a ∧ a.io = j ∧ a.conn.reading = .routing

/-- The router does what the server sees of it: it holds the same entries, its pool holds the same
    tasks, and its threads are in the calls that the handlers of the connections are in. -/
structure Serves (b : Bindings ep World) (s : Server ep World)
    (r : EasyRpcRouting.Router (Entry ep World) Nat) : Prop where
  holds : Holds b r.maps
  pool : mapPool askOfRequest s.pool = mapPool askOfRouted r.threadpool
  calls : ∀ j n, InRoute s j n ↔ ∃ call, r.calls j = some call ∧ call.conn = n
  threads : ∀ j call, r.calls j = some call → call.id.thread = j

section Steps

variable {b : Bindings ep World} {s s' : Server ep World}
  {r : EasyRpcRouting.Router (Entry ep World) Nat}

/-- What changes neither the pool nor the route calls concerns the router not at all. -/
theorem Serves.stutter (h : Serves b s r)
    (hpool : mapPool askOfRequest s'.pool = mapPool askOfRequest s.pool)
    (hroute : ∀ j n, InRoute s' j n ↔ InRoute s j n) : Serves b s' r := by
  refine ⟨h.holds, hpool.trans h.pool, ?_, h.threads⟩
  intro j n
  rw [hroute]
  exact h.calls j n

/-- A connection that moves outside of `route` leaves everybody where he is. -/
theorem inRoute_setConn {n : Nat} {a : Accepted} (ha : s.conns[n]? = some a) {c : Connection}
    (hsame : c.reading = .routing ↔ a.conn.reading = .routing) (j m : Nat) :
    InRoute (s.setConn n a c) j m ↔ InRoute s j m := by
  by_cases hm : n = m
  · subst hm
    have hget : (s.setConn n a c).conns[n]? = some ⟨c, a.io⟩ := ThreadTable.getElem?_set_moved ha
    simp only [InRoute, hget, ha, Option.some.injEq, exists_eq_left', hsame]
  · have hget : (s.setConn n a c).conns[m]? = s.conns[m]? := List.getElem?_set_ne hm
    simp only [InRoute, hget]

/-- A connection that moves leaves the others inside or outside of `route`. -/
theorem inRoute_setConn_ne {n m : Nat} {a : Accepted} {c : Connection} (hm : m ≠ n) (j : Nat) :
    InRoute (s.setConn n a c) j m ↔ InRoute s j m := by
  have hget : (s.setConn n a c).conns[m]? = s.conns[m]? := List.getElem?_set_ne (Ne.symm hm)
  simp only [InRoute, hget]

/-- A connection of another I/O thread is nothing to this one. -/
theorem inRoute_setConn_io {n j : Nat} {a : Accepted} (ha : s.conns[n]? = some a) {c : Connection}
    (hj : j ≠ a.io) (m : Nat) : InRoute (s.setConn n a c) j m ↔ InRoute s j m := by
  by_cases hm : m = n
  · subst hm
    have hget : (s.setConn m a c).conns[m]? = some ⟨c, a.io⟩ := ThreadTable.getElem?_set_moved ha
    constructor
    · rintro ⟨a', ha', hio, -⟩
      cases hget.symm.trans ha'
      exact absurd hio.symm hj
    · rintro ⟨a', ha', hio, -⟩
      cases ha.symm.trans ha'
      exact absurd hio.symm hj
  · exact inRoute_setConn_ne hm j

theorem inRoute_accept (io timeoutMilli : Nat) (j m : Nat) :
    InRoute { s with conns := s.conns ++ [⟨(Connection.create timeoutMilli).start, io⟩] } j m
      ↔ InRoute s j m := by
  by_cases hm : m < s.conns.length
  · simp only [InRoute, List.getElem?_append_left hm]
  · -- a new connection reads its header
    constructor
    · rintro ⟨a, ha, -, hr⟩
      rw [List.getElem?_append_right (Nat.le_of_not_lt hm)] at ha
      have hmem := List.mem_of_getElem? ha
      rw [List.mem_singleton] at hmem
      subst hmem
      cases hr
    · rintro ⟨a, ha, -, -⟩
      exact absurd (List.getElem?_eq_some_iff.mp ha).1 hm

/-- An I/O thread that is free for a handler is in no route call. -/
theorem not_inRoute_of_ioFree {io : Nat} (hfree : s.ioFree io = true) (m : Nat) :
    ¬ InRoute s io m := by
  rintro ⟨a, ha, rfl, hr⟩
  obtain ⟨-, hall⟩ := Bool.and_eq_true_iff.mp hfree
  have hno := List.all_eq_true.mp hall a (List.mem_of_getElem? ha)
  rw [hr] at hno
  simp at hno

/-- A step of the pool that is not `add_task` is one of the router's pool. -/
theorem Serves.pool_step (h : Serves b s r)
    {a : EasyRpcThreadPool.Act (RequestTask ep World)} {p : ThreadPool (RequestTask ep World)}
    (hadd : isAddTask a = false) (hs : s.pool.step a = some p) (hpool : s'.pool = p)
    (hroute : ∀ j n, InRoute s' j n ↔ InRoute s j n) :
    ∃ c r', r.step c = some r' ∧ Serves b s' r' := by
  have hsame : ∃ c : EasyRpcThreadPool.Act (PoolTask (Entry ep World) Nat),
      isAddTask c = false ∧ mapAct askOfRequest a = mapAct askOfRouted c := by
    cases a with
    | addTask => cases hadd
    | worker i woken => exact ⟨.worker i woken, rfl, rfl⟩
    | wakeWorker i => exact ⟨.wakeWorker i, rfl, rfl⟩
    | producer j woken => exact ⟨.producer j woken, rfl, rfl⟩
    | wakeProducer j => exact ⟨.wakeProducer j, rfl, rfl⟩
    | stop => exact ⟨.stop, rfl, rfl⟩
    | terminate => exact ⟨.terminate, rfl, rfl⟩
  obtain ⟨c, hinner, hacts⟩ := hsame
  obtain ⟨q, hq, hagree⟩ := step_agrees h.pool hacts hs
  refine ⟨.pool c, { r with threadpool := q }, ?_, h.holds, ?_, ?_, h.threads⟩
  · show (if isAddTask c then none else (r.threadpool.step c).map _) = _
    rw [hinner, hq]
    rfl
  · rw [hpool]
    exact hagree
  · intro j n
    rw [hroute]
    exact h.calls j n

/-- A thread in no route call is in none of the router's. -/
theorem Serves.calls_none (h : Serves b s r) {j : Nat} (hfree : ∀ m, ¬ InRoute s j m) :
    r.calls j = none := by
  cases hcall : r.calls j with
  | none => rfl
  | some call => exact absurd ((h.calls j call.conn).mpr ⟨call, hcall, rfl⟩) (hfree call.conn)

/-- A call that finds no entry returns `false`. -/
theorem route_refused {call : RouteCall Nat}
    (hnone : ((tableOf call.mode).bind fun t => ((r.maps t).find call.protocol).map Node.value)
      = none) :
    ∃ log, r.route call = some { r.returns call false with log := log } := by
  have hin : ∀ table, tableOf call.mode = some table →
      r.routeIn table call = some (r.returns call false) := by
    intro table htable
    rw [htable, Option.bind_some, Option.map_eq_none_iff] at hnone
    rw [EasyRpcRouting.Router.routeIn, hnone]
  by_cases hnonRaw : call.mode = .nonRaw
  · refine ⟨r.log, ?_⟩
    rw [EasyRpcRouting.Router.route, if_pos hnonRaw]
    exact hin _ (if_pos hnonRaw)
  · by_cases hraw : call.mode = .raw
    · refine ⟨r.log, ?_⟩
      rw [EasyRpcRouting.Router.route, if_neg hnonRaw, if_pos hraw]
      refine hin _ ?_
      rw [tableOf, if_neg hnonRaw, if_pos hraw]
    · rw [EasyRpcRouting.Router.route, if_neg hnonRaw, if_neg hraw]
      exact ⟨_, rfl⟩

/-- One that finds its entry goes on into `add_task`. -/
theorem route_admitted {call : RouteCall Nat} {table : Table} {node : Node (Entry ep World)}
    {p : ThreadPool (PoolTask (Entry ep World) Nat)} (htable : tableOf call.mode = some table)
    (hfind : (r.maps table).find call.protocol = some node)
    (hadd : r.threadpool.step (.addTask call.id.thread ⟨call.id,
      table, ⟨call.protocol, node.id⟩, call.body, call.conn, node.value⟩) = some p) :
    r.route call = some { r with
      threadpool := p, calls := Function.update r.calls call.id.thread (some call) } := by
  have hin : r.routeIn table call = some { r with
      threadpool := p, calls := Function.update r.calls call.id.thread (some call) } := by
    rw [EasyRpcRouting.Router.routeIn, hfind]
    simp only [hadd, Option.map_some]
  rw [tableOf] at htable
  rw [EasyRpcRouting.Router.route]
  split at htable
  · rename_i hnonRaw
    cases htable
    rw [if_pos hnonRaw, hin]
  · rename_i hnonRaw
    split at htable
    · rename_i hraw
      cases htable
      rw [if_neg hnonRaw, if_pos hraw, hin]
    · cases htable

/-- The router's threads after a step of the thread of one connection. -/
theorem calls_update {calls : Nat → Option (RouteCall Nat)} {io : Nat}
    {call : Option (RouteCall Nat)} (hthreads : ∀ j call, calls j = some call → call.id.thread = j)
    (hcall : ∀ c, call = some c → c.id.thread = io) (j : Nat) (c : RouteCall Nat)
    (h : Function.update calls io call j = some c) : c.id.thread = j := by
  by_cases hj : j = io
  · subst hj
    rw [Function.update_self] at h
    exact hcall c h
  · rw [Function.update_of_ne hj] at h
    exact hthreads j c h

/-- The lookup of a request whose protocol is not bound. -/
theorem Serves.refuses (h : Serves b s r) {io : Nat} (hfree : ∀ m, ¬ InRoute s io m)
    {protocol : Str} {mode : CallMode} (body : Str) (n : Nat)
    (hf : b.find mode protocol = none) (hpool : s'.pool = s.pool)
    (hroute : ∀ j n, InRoute s' j n ↔ InRoute s j n) :
    ∃ c r', r.step c = some r' ∧ Serves b s' r' := by
  have hnone := h.calls_none hfree
  have hlook := (h.holds mode protocol).symm.trans hf
  let call : RouteCall Nat := ⟨⟨io, r.count io⟩, protocol, body, mode, n, r.bindings⟩
  obtain ⟨log, hroutes⟩ : ∃ log, r.route call = some { r.returns call false with log := log } :=
    route_refused hlook
  have hcalls : Function.update r.calls io none = r.calls := by
    rw [← hnone, Function.update_eq_self]
  refine ⟨.route io protocol body mode n, { r.returns call false with log := log }, ?_, h.holds,
    ?_, ?_, ?_⟩
  · show (if (r.calls io).isSome then none else r.route call) = _
    rw [hnone, hroutes]
    rfl
  · rw [hpool]
    exact h.pool
  · intro j m
    show _ ↔ ∃ c, Function.update r.calls io none j = some c ∧ c.conn = m
    rw [hcalls, hroute]
    exact h.calls j m
  · intro j c hc
    exact calls_update h.threads (fun c hc => by cases hc) j c hc

/-- The lookup of one whose protocol is, and its task. -/
theorem Serves.routes (h : Serves b s r) {n : Nat} {a : Accepted} (ha : s.conns[n]? = some a)
    (hfree : ∀ m, ¬ InRoute s a.io m) {protocol body : Str} {mode : CallMode}
    {entry : Entry ep World} (hf : b.find mode protocol = some entry)
    {p : ThreadPool (RequestTask ep World)}
    (hadd : s.pool.step (.addTask a.io ⟨entry, body, n, none⟩) = some p)
    {c : Connection} (hr : c.reading = .routing) :
    ∃ c' r', r.step c' = some r' ∧ Serves b { s.setConn n a c with pool := p } r' := by
  have hnone := h.calls_none hfree
  have hlook := (h.holds mode protocol).symm.trans hf
  obtain ⟨table, htable, hnode⟩ := Option.bind_eq_some_iff.mp hlook
  obtain ⟨node, hfind, rfl⟩ := Option.map_eq_some_iff.mp hnode
  let call : RouteCall Nat := ⟨⟨a.io, r.count a.io⟩, protocol, body, mode, n, r.bindings⟩
  obtain ⟨q, hq, hagree⟩ := step_agrees (c := .addTask a.io
    ⟨call.id, table, ⟨protocol, node.id⟩, body, n, node.value⟩) h.pool rfl hadd
  refine ⟨.route a.io protocol body mode n, { r with
    threadpool := q, calls := Function.update r.calls a.io (some call) }, ?_, h.holds, hagree,
    ?_, calls_update h.threads fun c hc => by cases hc; rfl⟩
  · show (if (r.calls a.io).isSome then none else r.route call) = _
    rw [hnone, route_admitted htable hfind hq]
    rfl
  · intro j m
    show _ ↔ ∃ c, Function.update r.calls a.io (some call) j = some c ∧ c.conn = m
    by_cases hj : j = a.io
    · subst hj
      rw [Function.update_self]
      constructor
      · intro hroute
        by_cases hm : m = n
        · exact ⟨call, rfl, hm.symm⟩
        · exact absurd ((inRoute_setConn_ne hm _).mp hroute) (hfree m)
      · rintro ⟨c', hc', rfl⟩
        cases hc'
        exact ⟨⟨c, a.io⟩, ThreadTable.getElem?_set_moved ha, rfl, hr⟩
    · rw [Function.update_of_ne hj, ← h.calls]
      exact inRoute_setConn_io ha hj m

/-- `add_task` is over, and the call returns. -/
theorem Serves.returns (h : Serves b s r) {n : Nat} {a : Accepted} (ha : s.conns[n]? = some a)
    (hr : a.conn.reading = .routing) (hidle : s.pool.producers[a.io]? = some .idle)
    {c : Connection} (hc : c.reading = .idle) :
    ∃ c' r', r.step c' = some r' ∧ Serves b (s.setConn n a c) r' := by
  obtain ⟨call, hcall, hconn⟩ := (h.calls a.io n).mp ⟨a, ha, rfl, hr⟩
  have hplace := idle_agrees h.pool hidle
  have hthread := h.threads _ _ hcall
  refine ⟨.returnTrue a.io, r.returns call true, ?_, h.holds, h.pool, ?_, ?_⟩
  · simp only [EasyRpcRouting.Router.step, hcall, hplace]
  · intro j m
    show _ ↔ ∃ c, Function.update r.calls call.id.thread none j = some c ∧ c.conn = m
    rw [hthread]
    by_cases hj : j = a.io
    · subst hj
      rw [Function.update_self]
      refine iff_of_false ?_ (by rintro ⟨c', hc', -⟩; cases hc')
      intro hroute
      by_cases hm : m = n
      · subst hm
        obtain ⟨a', ha', -, hr'⟩ := hroute
        have hget : (s.setConn m a c).conns[m]? = some ⟨c, a.io⟩ :=
          ThreadTable.getElem?_set_moved ha
        cases hget.symm.trans ha'
        cases hc.symm.trans hr'
      · obtain ⟨call', hcall', rfl⟩ :=
          (h.calls a.io m).mp ((inRoute_setConn_ne hm _).mp hroute)
        cases hcall.symm.trans hcall'
        exact hm hconn
    · rw [Function.update_of_ne hj, ← h.calls]
      exact inRoute_setConn_io ha hj m
  · exact calls_update h.threads fun c hc => by cases hc

/-- What the handler of the body read comes to: no lookup, a lookup that fails, or one that
    succeeds and goes on into `add_task`. -/
inductive Asked (b : Bindings ep World) (s : Server ep World) (n : Nat) (a : Accepted) :
    Server ep World → Prop where
  | returns {c : Connection} (hc : c.reading = .idle) : Asked b s n a (s.setConn n a c)
  | refused {c : Connection} {protocol : Str} {mode : CallMode} (body : Str)
      (hc : c.reading = .idle) (hf : b.find mode protocol = none) : Asked b s n a (s.setConn n a c)
  | bound {c : Connection} {protocol body : Str} {mode : CallMode} {entry : Entry ep World}
      {p : ThreadPool (RequestTask ep World)} (hc : c.reading = .routing)
      (hf : b.find mode protocol = some entry)
      (hadd : s.pool.step (.addTask a.io ⟨entry, body, n, none⟩) = some p) :
      Asked b s n a { s.setConn n a c with pool := p }

/-- What the body handler asks of the router, at a step that can be taken. -/
theorem asked_of_step {n : Nat} (hs : s.step b (.bodyHandler n) = some s') :
    ∃ a, s.conns[n]? = some a ∧ s.ioFree a.io = true ∧ a.conn.reading ≠ .routing
      ∧ Asked b s n a s' := by
  cases ha : s.conns[n]? with
  | none =>
      simp only [Server.step, ha] at hs
      cases hs
  | some a =>
      simp only [Server.step, ha] at hs
      obtain ⟨hfree, hs⟩ := Option.ite_none_right_eq_some.mp hs
      refine ⟨a, rfl, hfree, ?_⟩
      simp only [Server.bodyHandler, ha] at hs
      cases hbody : a.conn.bodyHandler with
      | none =>
          rw [hbody] at hs
          cases hs
      | some result =>
          rw [hbody] at hs
          obtain ⟨ec, hr, rfl | ⟨protocol, body, -, -, -, -, rfl⟩⟩ :=
            Connection.bodyHandler_cases hbody
          · cases hs
            refine ⟨?_, .returns rfl⟩
            intro hroute
            cases hr.symm.trans hroute
          · have hbefore : a.conn.reading ≠ .routing := by
              intro hroute
              cases hr.symm.trans hroute
            refine ⟨hbefore, ?_⟩
            cases hf : b.find a.conn.reqHead.mode protocol with
            | none =>
                simp only [hf] at hs
                cases hs
                exact .refused body rfl hf
            | some entry =>
                simp only [hf] at hs
                obtain ⟨p, hadd, rfl⟩ := Option.map_eq_some_iff.mp hs
                exact .bound rfl hf hadd

/-- **THE BODY HANDLER IS A CALL OF `route`**, or it is no step of the router at all. -/
theorem Serves.bodyHandler (h : Serves b s r) {n : Nat}
    (hs : s.step b (.bodyHandler n) = some s') :
    ∃ r', (r' = r ∨ ∃ c, r.step c = some r') ∧ Serves b s' r' := by
  obtain ⟨a, ha, hfree, hr, hasked⟩ := asked_of_step hs
  have hnone := not_inRoute_of_ioFree hfree
  have hroute : ∀ {c : Connection}, c.reading = .idle → ∀ j m,
      InRoute (s.setConn n a c) j m ↔ InRoute s j m := by
    intro c hc
    refine inRoute_setConn ha (iff_of_false ?_ hr)
    rw [hc]
    exact nofun
  cases hasked with
  | returns hc => exact ⟨r, Or.inl rfl, h.stutter rfl (hroute hc)⟩
  | @refused c protocol mode body hc hf =>
      have hrefused : ∃ c' r', r.step c' = some r' ∧ Serves b (s.setConn n a c) r' :=
        h.refuses hnone body n hf rfl (hroute hc)
      obtain ⟨c', r', hstep, hserves⟩ := hrefused
      exact ⟨r', Or.inr ⟨c', hstep⟩, hserves⟩
  | bound hc hf hadd =>
      obtain ⟨c', r', hstep, hserves⟩ := h.routes ha hnone hf hadd hc
      exact ⟨r', Or.inr ⟨c', hstep⟩, hserves⟩

/-- **STEP** of the server: nothing that concerns the router, or a step of the router. -/
theorem Serves.step (h : Serves b s r) {a : EasyRpcServer.Act ep World}
    (hs : s.step b a = some s') :
    ∃ r', (r' = r ∨ ∃ c, r.step c = some r') ∧ Serves b s' r' := by
  -- a connection that is neither before nor after the step in its route call
  have hconn : ∀ {n : Nat} {acc : Accepted} {c : Connection}, s.conns[n]? = some acc →
      acc.conn.reading ≠ .routing → c.reading ≠ .routing →
      ∃ r', (r' = r ∨ ∃ c, r.step c = some r') ∧ Serves b (s.setConn n acc c) r' :=
    fun hacc hr hc => ⟨r, Or.inl rfl, h.stutter rfl (inRoute_setConn hacc (iff_of_false hc hr))⟩
  have hpool : ∀ {a : EasyRpcThreadPool.Act (RequestTask ep World)}
      {p : ThreadPool (RequestTask ep World)}, isAddTask a = false → s.pool.step a = some p →
      s'.pool = p → (∀ j n, InRoute s' j n ↔ InRoute s j n) →
      ∃ r', (r' = r ∨ ∃ c, r.step c = some r') ∧ Serves b s' r' := by
    intro a p hadd hp heq hroute
    obtain ⟨c, r', hstep, hserves⟩ := h.pool_step hadd hp heq hroute
    exact ⟨r', Or.inr ⟨c, hstep⟩, hserves⟩
  cases EasyRpcServer.effect_of_step hs with
  | bodyRefused | routes => exact h.bodyHandler hs
  | accepts hio => exact ⟨r, Or.inl rfl, h.stutter rfl (inRoute_accept _ _)⟩
  | headReads ha hr | headFails ha hr | headAccepted ha hr | headRefused ha hr | bodyReads ha hr
  | bodyFails ha hr => exact hconn ha (by rw [hr]; exact nofun) nofun
  | @destructs n acc ha hr hfuncs hnone =>
      refine hconn ha (by rw [hr]; exact nofun) ?_
      simp [Connection.destruct, hr]
  | expires ha hwaiting =>
      exact ⟨r, Or.inl rfl, h.stutter rfl (inRoute_setConn ha Iff.rfl)⟩
  | handles ha hready hkeeps hr =>
      refine ⟨r, Or.inl rfl, h.stutter rfl (inRoute_setConn ha ?_)⟩
      rw [hr]
  | @returns n acc ha hr hidle =>
      obtain ⟨c', r', hstep, hserves⟩ :=
        h.returns (c := acc.conn.setReading .idle) ha hr hidle rfl
      exact ⟨r', Or.inr ⟨c', hstep⟩, hserves⟩
  | @pool a p hint hp =>
      refine hpool ?_ hp rfl fun _ _ => Iff.rfl
      cases a with
      | addTask => cases hint
      | worker | wakeWorker | producer | wakeProducer | stop | terminate => rfl
  | runs hrun hnew =>
      exact ⟨r, Or.inl rfl, h.stutter (mapPool_setWorker hrun rfl) fun _ _ => Iff.rfl⟩
  | @ends i task acc outcome result remains ec hrun hres hcaught ha =>
      have hp : s.pool.step (.worker i none) = some (s.pool.setWorker i .notify) := by
        show s.pool.workerStep i none = _
        rw [ThreadPool.workerStep, hrun]
      refine hpool rfl hp rfl ?_
      refine inRoute_setConn ha ?_
      rw [(EasyRpcServer.respond_request acc.conn result remains ec).1]

end Steps

/-- The maps that hold the bindings. -/
def mapsOf (b : Bindings ep World) (table : Table) : RefMap Str (Entry ep World) where
  find protocol := (b.find (modeOf table) protocol).map fun entry => ⟨0, entry⟩
  next := 1
  fresh := by
    intro protocol node hnode
    obtain ⟨entry, -, rfl⟩ := Option.map_eq_some_iff.mp hnode
    exact Nat.one_pos

theorem holds_mapsOf (b : Bindings ep World) : Holds b (mapsOf b) := by
  have hmaps : ∀ table protocol, ((mapsOf b table).find protocol).map Node.value
      = b.find (modeOf table) protocol := by
    intro table protocol
    show ((b.find (modeOf table) protocol).map fun entry => (⟨0, entry⟩ : Node _)).map Node.value
      = _
    rw [Option.map_map]
    exact Option.map_id'
  intro mode protocol
  simp only [hmaps]
  by_cases hnonRaw : mode = .nonRaw
  · subst hnonRaw
    rfl
  · by_cases hraw : mode = .raw
    · subst hraw
      rfl
    · rw [Bindings.find, if_neg hnonRaw, if_neg hraw, tableOf, if_neg hnonRaw, if_neg hraw]
      rfl

/-- The router once everything is bound and `n` workers have been started, with `m` I/O threads. -/
def routerOf (b : Bindings ep World) (n m : Nat) :
    EasyRpcRouting.Router (Entry ep World) Nat where
  maps := mapsOf b
  threadpool := .initial n m
  log := []
  calls _ := none
  bindings := []
  count _ := 0
  returned := []

/-- **THE SERVER ROUTES** as the router does: whatever its connections, threads and workers do is a
    run of the router with the same bindings, whose pool then holds the same tasks and whose
    threads are in the same calls. -/
theorem server_routes {b : Bindings ep World} {n m : Nat} {s : Server ep World}
    (h : Leads (serverSystem b) ⟨.initial n m, [], []⟩ s) :
    ∃ r, Leads (EasyRpcRouting.routerSystem (Entry ep World) Nat) (routerOf b n m) r
      ∧ Serves b s r := by
  refine h.invariant (I := fun s => ∃ r, Leads (EasyRpcRouting.routerSystem (Entry ep World) Nat)
    (routerOf b n m) r ∧ Serves b s r) ?_ ?_
  · rintro s a s' ⟨r, hleads, hserves⟩ hs
    obtain ⟨r', rfl | ⟨c, hc⟩, hserves'⟩ := hserves.step hs
    · exact ⟨r', hleads, hserves'⟩
    · exact ⟨r', hleads.trans (Leads.one hc), hserves'⟩
  · refine ⟨routerOf b n m, Leads.refl _ _, holds_mapsOf b, ?_, ?_, nofun⟩
    · show mapPool askOfRequest (.initial n m) = mapPool askOfRouted (.initial n m)
      rw [mapPool_initial, mapPool_initial]
    · intro j k
      refine iff_of_false ?_ ?_
      · rintro ⟨a, ha, -⟩
        cases ha
      · rintro ⟨call, hcall, -⟩
        cases hcall

end Server

/-! ## The process and its workers -/

section Process

variable {ep : Easypack} {World : Type} {layout : EasyRpcServerShutdown.Layout}
  {b : Bindings ep World} {s s' : EasyRpcServerShutdown.Process ep World}
  {w : EasyRpcWorkerLimit.Process (Ask ep World)}

/-- How `listen` ends; one that fails is taken to fail at the address. -/
def listening (listens : Bool) : EasyRpcWorkerLimit.Listening :=
  if listens then .listens else .failsBeforeOpen "resolve: Host not found"

/-- The two processes have the same workers; a server that has not been run has its acceptor
    closed, and a running one open. -/
structure SameWorkers (s : EasyRpcServerShutdown.Process ep World)
    (w : EasyRpcWorkerLimit.Process (Ask ep World)) : Prop where
  pool : w.threadpool = mapPool askOfRequest s.server.pool
  closed : ∀ k, s.phases k = .created → w.acceptorOpen k = false
  opened : ∀ k, s.phases k = .running → w.acceptorOpen k = true

/-- The router's pool is not stopped. -/
def KeepsRouter (_ : EasyRpcServerShutdown.Process ep World) :
    EasyRpcServerShutdown.Act ep World → Prop
  | .stopRouter => False
  | .terminateRouter => False
  | _ => True

/-- A run that starts workers finds room for them, and listens. -/
def RunFits (s : EasyRpcServerShutdown.Process ep World) :
    EasyRpcServerShutdown.Act ep World → Prop
  | .run k num listens =>
      0 < num → num ≤ EasyRpcRouting.maxThreadSize →
        s.server.pool.workers.length + num ≤ EasyRpcRouting.maxThreadSize
          ∧ listens = true ∧ s.phases k = .created
  | _ => True

/-- Adding workers and forgetting the names of the tasks commute. -/
theorem initThreadNum_map {p : ThreadPool (RequestTask ep World)} {num : Nat} :
    EasyRpcRouting.initThreadNum (mapPool askOfRequest p) num
      = (EasyRpcRouting.initThreadNum p num).map (mapPool askOfRequest) := by
  rw [EasyRpcRouting.initThreadNum, EasyRpcRouting.initThreadNum]
  split
  · rfl
  · show _ = Except.ok _
    simp only [mapPool, List.map_append, List.map_replicate, mapWorker]

/-- Opening an acceptor closes none. -/
theorem update_open {acceptorOpen : Nat → Bool} {k' : Nat} (k : Nat)
    (h : acceptorOpen k' = true) : Function.update acceptorOpen k true k' = true := by
  by_cases hk : k' = k
  · subst hk
    exact Function.update_self ..
  · exact (Function.update_of_ne hk _ _).trans h

/-- A server's `run` is a `run` of the process with the worker limit. -/
theorem SameWorkers.run (h : SameWorkers s w) {k num : Nat} {listens : Bool}
    (hs : s.run layout k num listens = some s') :
    ∃ w', (w.multithreaded k num).step (.run k (listening listens)) = some w'
      ∧ SameWorkers s' w' := by
  have hnum : (w.multithreaded k num).threadNum k = num := Function.update_self ..
  have hinit : EasyRpcRouting.initThreadNum (w.multithreaded k num).threadpool num
      = (EasyRpcRouting.initThreadNum s.server.pool num).map (mapPool askOfRequest) := by
    rw [← initThreadNum_map, ← h.pool]
    rfl
  refine ⟨_, rfl, ?_⟩
  rw [EasyRpcWorkerLimit.run_exec, hnum]
  obtain ⟨⟨what, hwhat⟩, rfl⟩ | ⟨p, hp, hs'⟩ := EasyRpcServerShutdown.run_cases hs
  · have hthrows : (EasyRpcWorkerLimit.startWorkers num).exec (w.multithreaded k num)
        = (.error (.std what), w.multithreaded k num) := by
      rw [EasyRpcWorkerLimit.startWorkers, exec_of, hinit, hwhat]
      rfl
    rw [exec_bind_error hthrows]
    exact ⟨h.pool, h.closed, h.opened⟩
  · have hstart : (EasyRpcWorkerLimit.startWorkers num).exec (w.multithreaded k num)
        = (.ok (), { w.multithreaded k num with threadpool := mapPool askOfRequest p }) := by
      rw [EasyRpcWorkerLimit.startWorkers, exec_of, hinit, hp]
      rfl
    rw [exec_bind_ok hstart, EasyRpcWorkerLimit.listen, exec_of]
    rcases hs' with ⟨hthrows, rfl⟩ | ⟨⟨hcreated, rfl⟩, rfl⟩
    · cases listens with
      | false => exact ⟨rfl, h.closed, h.opened⟩
      | true =>
          have hrun : s.phases k ≠ .created := fun hcreated => hthrows ⟨hcreated, rfl⟩
          cases hopen : w.acceptorOpen k with
          | true =>
              simp only [listening, if_true, EasyRpcWorkerLimit.Process.multithreaded, hopen]
              exact ⟨rfl, h.closed, h.opened⟩
          | false =>
              simp only [listening, if_true, EasyRpcWorkerLimit.Process.multithreaded, hopen,
                Bool.false_eq_true, if_false]
              refine ⟨rfl, fun k' hk' => ?_, fun k' hk' => update_open k (h.opened k' hk')⟩
              have hne : k' ≠ k := fun heq => hrun (heq ▸ hk')
              exact (Function.update_of_ne hne _ _).trans (h.closed k' hk')
    · have hclosed := h.closed k hcreated
      simp only [listening, if_true, EasyRpcWorkerLimit.Process.multithreaded, hclosed,
        Bool.false_eq_true, if_false]
      refine ⟨rfl, fun k' hk' => ?_, fun k' hk' => ?_⟩
      · have hne : k' ≠ k := by
          rintro rfl
          cases (Function.update_self ..).symm.trans hk'
        exact (Function.update_of_ne hne _ _).trans
          (h.closed k' ((Function.update_of_ne hne _ _).symm.trans hk'))
      · by_cases hk : k' = k
        · subst hk
          exact Function.update_self ..
        · exact update_open k (h.opened k' ((Function.update_of_ne hk _ _).symm.trans hk'))

/-- A run that fits in the one process fits in the other. -/
theorem SameWorkers.runFits (h : SameWorkers s w) {k num : Nat} {listens : Bool}
    (hfits : RunFits s (.run k num listens)) :
    EasyRpcWorkerLimit.RunFits (w.multithreaded k num) (.run k (listening listens)) := by
  have hnum : (w.multithreaded k num).threadNum k = num := Function.update_self ..
  have hcount : (w.multithreaded k num).count = s.server.pool.workers.length := by
    show w.threadpool.workers.length = _
    rw [h.pool]
    exact List.length_map _
  intro hpos hle
  rw [hnum] at hpos hle
  obtain ⟨hroom, rfl, hcreated⟩ := hfits hpos hle
  rw [hnum, hcount]
  exact ⟨hroom, rfl, h.closed k hcreated⟩

/-- A pool step of the one is a pool step of the other. -/
theorem SameWorkers.pool_step (h : SameWorkers s w)
    {a : EasyRpcThreadPool.Act (RequestTask ep World)} {p : ThreadPool (RequestTask ep World)}
    (ha : a ≠ .stop ∧ a ≠ .terminate) (hs : s.server.pool.step a = some p) :
    w.step (.pool (mapAct askOfRequest a))
      = some { w with threadpool := mapPool askOfRequest p } := by
  have hstep : w.threadpool.step (mapAct askOfRequest a) = some (mapPool askOfRequest p) := by
    rw [h.pool, step_map, hs]
    rfl
  obtain ⟨hstop, hterminate⟩ := ha
  cases a with
  | stop => exact absurd rfl hstop
  | terminate => exact absurd rfl hterminate
  | worker | wakeWorker | addTask | producer | wakeProducer =>
      exact congrArg (Option.map fun p => { w with threadpool := p }) hstep

/-- What the process of the worker limit does for an action of the other. -/
inductive Answers (w : EasyRpcWorkerLimit.Process (Ask ep World))
    (a : EasyRpcServerShutdown.Act ep World) :
    EasyRpcWorkerLimit.Process (Ask ep World) → Prop where
  | stays : Answers w a w
  | pool {c : EasyRpcThreadPool.Act (Ask ep World)} {w' : EasyRpcWorkerLimit.Process (Ask ep World)}
      (hc : w.step (.pool c) = some w') : Answers w a w'
  | runs {k num : Nat} {listens : Bool} {w' : EasyRpcWorkerLimit.Process (Ask ep World)}
      (ha : a = .run k num listens)
      (hrun : (w.multithreaded k num).step (.run k (listening listens)) = some w') :
      Answers w a w'

/-- **STEP** of the process: nothing that concerns the workers, a step of the pool, or a run. -/
theorem SameWorkers.step (h : SameWorkers s w) {a : EasyRpcServerShutdown.Act ep World}
    (ha : KeepsRouter s a) (hs : s.step layout b a = some s') :
    ∃ w', SameWorkers s' w' ∧ Answers w a w' := by
  have hstutter : mapPool askOfRequest s'.server.pool = mapPool askOfRequest s.server.pool →
      (∀ k, s'.phases k = .created → s.phases k = .created) →
      (∀ k, s'.phases k = .running → s.phases k = .running) →
      ∃ w', SameWorkers s' w' ∧ Answers w a w' := by
    intro hpool hcreated hrunning
    exact ⟨w, ⟨h.pool.trans hpool.symm, fun k hk => h.closed k (hcreated k hk),
      fun k hk => h.opened k (hrunning k hk)⟩, .stays⟩
  have hphase : ∀ {k k' : Nat} {phase phase' : EasyRpcServerShutdown.Phase}, phase ≠ phase' →
      Function.update s.phases k phase k' = phase' → s.phases k' = phase' := by
    intro k k' phase phase' hne heq
    by_cases hk : k' = k
    · subst hk
      exact absurd ((Function.update_self ..).symm.trans heq) hne
    · exact (Function.update_of_ne hk _ _).symm.trans heq
  have hstops : EasyRpcServerShutdown.StopsServer a →
      ∃ w', SameWorkers s' w' ∧ Answers w a w' := by
    intro hstop
    obtain ⟨⟨hserver, -, -⟩, hphases, -⟩ := EasyRpcServerShutdown.stop_cases hs hstop
    have hsame : ∀ {k phase}, phase ≠ EasyRpcServerShutdown.Phase.stopping →
        phase ≠ .stopped → s'.phases k = phase → s.phases k = phase := by
      intro k phase hstopping hstopped hk
      obtain heq | heq | heq := hphases k
      · exact absurd (hk.symm.trans heq) hstopping
      · exact absurd (hk.symm.trans heq) hstopped
      · exact heq.symm.trans hk
    exact hstutter (by rw [hserver]) (fun _ => hsame nofun nofun) (fun _ => hsame nofun nofun)
  cases a with
  | run k num listens =>
      obtain ⟨w', hw, hsame⟩ := h.run hs
      exact ⟨w', hsame, .runs rfl hw⟩
  | stopRouter | terminateRouter => exact ha.elim
  | stop | stopIo | exit | join => exact hstops (by constructor)
  | destroy k =>
      obtain ⟨-, rfl⟩ := EasyRpcServerShutdown.destroy_cases hs
      exact hstutter rfl (fun _ => hphase nofun) (fun _ => hphase nofun)
  | server a =>
      obtain ⟨-, hs⟩ := Option.ite_none_right_eq_some.mp hs
      obtain ⟨t, ht, rfl⟩ := Option.map_eq_some_iff.mp hs
      have hpool : ∀ {c : EasyRpcThreadPool.Act (RequestTask ep World)},
          c ≠ .stop ∧ c ≠ .terminate → s.server.pool.step c = some t.pool →
          ∃ w', SameWorkers { s with
              server := t
              routed := s.routed ++ EasyRpcServerShutdown.routedBy b s.server a
              settled := s.settled ++ EasyRpcServerShutdown.settledBy s.server a } w'
            ∧ Answers w (.server a) w' := by
        intro c hc hp
        exact ⟨{ w with threadpool := mapPool askOfRequest t.pool }, ⟨rfl, h.closed, h.opened⟩,
          .pool (h.pool_step hc hp)⟩
      cases EasyRpcServer.effect_of_step ht with
      | @routes n acc protocol body entry p ha hr hopen hp hb hf hadd =>
          exact hpool (c := .addTask acc.io ⟨entry, body, n, none⟩) ⟨nofun, nofun⟩ hadd
      | @pool a p hint hp =>
          refine hpool ?_ hp
          cases a with
          | stop | terminate => cases hint
          | worker | wakeWorker | addTask | producer | wakeProducer => exact ⟨nofun, nofun⟩
      | @ends i task acc outcome result remains ec hrun hres hcaught ha =>
          refine hpool (c := .worker i none) ⟨nofun, nofun⟩ ?_
          show s.server.pool.workerStep i none = _
          rw [ThreadPool.workerStep, hrun]
      | runs hrun hnew =>
          exact hstutter (mapPool_setWorker hrun rfl) (fun _ hk => hk) (fun _ hk => hk)
      | accepts | headReads | headFails | headAccepted | headRefused | bodyReads | bodyFails
      | bodyRefused | returns | expires | handles | destructs =>
          exact hstutter rfl (fun _ hk => hk) (fun _ hk => hk)

/-- **THE PROCESS STARTS WORKERS** as the one of the worker limit does: as long as the router is not
    stopped, its runs are runs of that process with the same workers; and where each run that
    starts workers has room for them and listens, the pool stays within its limit. -/
theorem process_starts_workers (layout : EasyRpcServerShutdown.Layout) (b : Bindings ep World) :
    (∀ s, Reaches (EasyRpcServerShutdown.processSystem layout b) KeepsRouter s →
      ∃ w : EasyRpcWorkerLimit.Process (Ask ep World),
        Reachable EasyRpcWorkerLimit.processSystem w ∧ SameWorkers s w)
    ∧ ∀ s, Reaches (EasyRpcServerShutdown.processSystem layout b)
        (fun s a => KeepsRouter s a ∧ RunFits s a) s →
        s.server.pool.workers.length ≤ EasyRpcRouting.maxThreadSize := by
  have hstart : ∀ s, (EasyRpcServerShutdown.processSystem layout b).start s →
      ∃ w : EasyRpcWorkerLimit.Process (Ask ep World),
        EasyRpcWorkerLimit.processSystem.start w ∧ SameWorkers s w := by
    rintro s ⟨m, rfl⟩
    exact ⟨_, ⟨m, rfl⟩, (mapPool_initial askOfRequest 0 m).symm, fun _ _ => rfl, nofun⟩
  constructor
  · intro s h
    refine Reaches.forward hstart ?_ h
    intro s a s' w hw hsame ha hs
    obtain ⟨w', hsame', hanswers⟩ := hsame.step ha hs
    refine ⟨w', ?_, hsame'⟩
    cases hanswers with
    | stays => exact hw
    | pool hc => exact Reachable.step hw hc
    | @runs k num listens _ _ hrun =>
        have hset : EasyRpcWorkerLimit.processSystem.step w (.multithreaded k num)
            = some (w.multithreaded k num) := rfl
        exact Reachable.step (a := .run k (listening listens)) (Reachable.step hw hset) hrun
  · intro s h
    have hwithin : ∃ w : EasyRpcWorkerLimit.Process (Ask ep World),
        Reaches EasyRpcWorkerLimit.processSystem EasyRpcWorkerLimit.RunFits w
        ∧ SameWorkers s w := by
      refine Reaches.forward hstart ?_ h
      rintro s a s' w hw hsame ⟨ha, hfits⟩ hs
      obtain ⟨w', hsame', hanswers⟩ := hsame.step ha hs
      refine ⟨w', ?_, hsame'⟩
      cases hanswers with
      | stays => exact hw
      | @pool c _ hc =>
          have hany : EasyRpcWorkerLimit.RunFits w (.pool c) := trivial
          exact hw.step hany hc
      | @runs k num listens _ heq hrun =>
          subst heq
          have hset : EasyRpcWorkerLimit.processSystem.step w (.multithreaded k num)
              = some (w.multithreaded k num) := rfl
          have hany : EasyRpcWorkerLimit.RunFits w (.multithreaded k num) := trivial
          exact (hw.step hany hset).step (hsame.runFits hfits) hrun
    obtain ⟨w, hw, hsame⟩ := hwithin
    have hlimit := (EasyRpcWorkerLimit.within_of_reaches hw).limit
    rw [EasyRpcWorkerLimit.Process.count, hsame.pool] at hlimit
    exact (List.length_map _).symm.trans_le hlimit

end Process

end EasyRpcRouterAgreement
