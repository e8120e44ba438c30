import EasyRpc.RemoteCallProofs

/-! # Remote answers — a call returns its own answer, and runs at most once

    The links of all calls and connections together survive every step of the network.  So a call
    that returns has the answer of its own run (`returns_own_answer`), and no handler runs twice
    for one call (`runs_at_most_once`).  The run is of the handler that the call names, on the
    body that it was given, where its header said the truth about them; and the answer is all of
    the result where the header of the response did. -/

namespace EasyRpcRemoteCall

open Transition ThreadTable Throwing ByteStream EasyRpcWire EasyRpcConnection EasyRpcDispatch
open EasyRpcThreadPool EasyRpcTaskCustody EasyRpcRoundTrip EasyRpcServer

variable {ep : Easypack} {World : Type}

/-! ## The network -/

/-- **THE INVARIANT** of the network. -/
structure NetInv (b : Bindings ep World) (net : Network ep World) : Prop where
  length : net.accepted.length = net.server.conns.length
  nodup : net.accepted.Nodup
  known : ∀ k ∈ net.accepted, k < net.callers.length
  executed : net.runs.map Run.conn = net.server.executed
  callers : ∀ (k : Nat) c, net.callers[k]? = some c → CallerInv c
  apart : ∀ (k : Nat) c, net.callers[k]? = some c → k ∉ net.accepted →
    c.request.taken = [] ∧ c.response.written = []
  links : ∀ (n : Nat) a (k : Nat) c, net.server.conns[n]? = some a → net.accepted[n]? = some k →
    net.callers[k]? = some c → Link b net.server.pool net.runs n c a.conn

section NetSteps

variable {b : Bindings ep World} {net net' : Network ep World}

/-- Connections of one call are one. -/
theorem NetInv.conn_unique (h : NetInv b net) {m n k : Nat} (hm : net.accepted[m]? = some k)
    (hn : net.accepted[n]? = some k) : m = n := by
  obtain ⟨hlt, -⟩ := List.getElem?_eq_some_iff.mp hm
  exact (List.getElem?_inj hlt h.nodup).mp (hm.trans hn.symm)

/-- A step at connection `n` and its call, which leaves the other ones alone. -/
theorem NetInv.at_conn (h : NetInv b net) {n k : Nat} {c c' : Caller} (a : Accepted)
    (conn' : Connection) (pool' : ThreadPool (RequestTask ep World))
    (runs' : List (Run ep World)) (hk : net.accepted[n]? = some k)
    (hc : net.callers[k]? = some c)
    (hserver : net'.server = ⟨pool', net.server.conns.set n ⟨conn', a.io⟩, runs'.map Run.conn⟩)
    (hcallers : net'.callers = net.callers.set k c') (haccepted : net'.accepted = net.accepted)
    (hruns : net'.runs = runs') (hcaller : CallerInv c')
    (hheld : ∀ m, m ≠ n → ∀ q : RequestTask ep World → Bool,
      (∀ task, q task = true → ofConn m task = true) → held q pool' ≤ held q net.server.pool)
    (hold : ∀ run ∈ net.runs, run ∈ runs')
    (hnew : ∀ run ∈ runs', run.conn ≠ n → run ∈ net.runs)
    (hlink : Link b pool' runs' n c' conn') : NetInv b net' := by
  constructor
  · rw [haccepted, hserver, List.length_set]
    exact h.length
  · rw [haccepted]
    exact h.nodup
  · rw [haccepted, hcallers, List.length_set]
    exact h.known
  · rw [hruns, hserver]
  · intro m x hm
    rw [hcallers] at hm
    rcases getElem?_set_some hm with ⟨-, rfl⟩ | ⟨-, hold⟩
    · exact hcaller
    · exact h.callers m x hold
  · intro m x hm hnot
    rw [hcallers] at hm
    rw [haccepted] at hnot
    rcases getElem?_set_some hm with ⟨rfl, -⟩ | ⟨-, hold⟩
    · exact absurd (List.mem_of_getElem? hk) hnot
    · exact h.apart m x hold hnot
  · intro m x j y hx hj hy
    rw [hserver] at hx ⊢
    rw [haccepted] at hj
    rw [hcallers] at hy
    rw [hruns]
    rcases getElem?_set_some hx with ⟨rfl, rfl⟩ | ⟨hne, hx⟩
    · cases hk.symm.trans hj
      rw [getElem?_set_moved hc] at hy
      cases hy
      exact hlink
    · rcases getElem?_set_some hy with ⟨rfl, -⟩ | ⟨-, hy⟩
      · exact absurd (h.conn_unique hk hj) hne
      · refine (h.links m x j y hx hj hy).pool_step (hheld m (Ne.symm hne)) hold ?_
        exact fun run hmem hconn => hnew run hmem fun heq => hne (heq.symm.trans hconn)

/-- A step of the connection alone. -/
theorem NetInv.conn_step (h : NetInv b net) {n : Nat} {a : Accepted} {conn' : Connection}
    (ha : net.server.conns[n]? = some a)
    (hlink : ∀ c, Link b net.server.pool net.runs n c a.conn →
      Link b net.server.pool net.runs n c conn') :
    NetInv b { net with server := net.server.setConn n a conn' } := by
  obtain ⟨hlt, -⟩ := List.getElem?_eq_some_iff.mp ha
  have hk := List.getElem?_eq_getElem (h.length.symm ▸ hlt)
  have hc := List.getElem?_eq_getElem (h.known _ (List.mem_of_getElem? hk))
  refine h.at_conn a conn' net.server.pool net.runs hk hc ?_ (List.set_getElem_self _).symm rfl
    rfl (h.callers _ _ hc) (fun _ _ _ _ => Nat.le_refl _) (fun _ hmem => hmem)
    (fun _ hmem _ => hmem) (hlink _ (h.links n a _ _ ha hk hc))
  rw [h.executed]
  rfl

/-- A step of a call alone. -/
theorem NetInv.caller_step (h : NetInv b net) {k : Nat} {c c' : Caller}
    (hc : net.callers[k]? = some c) (hstep : CallerInv c' ∧ Keeping b c c') :
    NetInv b { net with callers := net.callers.set k c' } := by
  obtain ⟨hcaller, hkeeping⟩ := hstep
  refine ⟨h.length, h.nodup, ?_, h.executed, ?_, ?_, ?_⟩
  · intro m hm
    rw [List.length_set]
    exact h.known m hm
  · intro m x hm
    rcases getElem?_set_some hm with ⟨-, rfl⟩ | ⟨-, hold⟩
    · exact hcaller
    · exact h.callers m x hold
  · intro m x hm hnot
    rcases getElem?_set_some hm with ⟨rfl, rfl⟩ | ⟨-, hold⟩
    · obtain ⟨htaken, hwritten⟩ := h.apart k c hc hnot
      exact ⟨hkeeping.request.trans htaken, hkeeping.response.trans hwritten⟩
    · exact h.apart m x hold hnot
  · intro n a j y ha hj hy
    rcases getElem?_set_some hy with ⟨rfl, rfl⟩ | ⟨-, hold⟩
    · exact (h.links n a k c ha hj hc).keeping hkeeping
    · exact h.links n a j y ha hj hold

/-- A read of the server, in both halves. -/
theorem NetInv.reads (h : NetInv b net) {n k len : Nat} {c : Caller} {a : Accepted}
    {conn' : Connection} {bytes : { bytes : List UInt8 // bytes.length = len }}
    {request : Stream UInt8} (hk : net.accepted[n]? = some k) (hc : net.callers[k]? = some c)
    (hread : c.request.read len = some (bytes, request))
    (hlink : Link b net.server.pool net.runs n { c with request := request } conn') :
    NetInv b { net with
      server := net.server.setConn n a conn'
      callers := net.callers.set k { c with request := request } } := by
  obtain ⟨-, hwritten⟩ := Stream.read_spec hread
  have hI := h.callers k c hc
  refine h.at_conn a conn' net.server.pool net.runs hk hc ?_ rfl rfl rfl ?_
    (fun _ _ _ _ => Nat.le_refl _) (fun _ hmem => hmem) (fun _ hmem _ => hmem) hlink
  · rw [h.executed]
    rfl
  · have hunsent : c.stage = .write → request.written = [] ∧ c.requestHead = .kept := by
      rw [hwritten]
      exact hI.unsent
    exact ⟨hunsent, hwritten ▸ hI.sent, hI.received⟩

/-- The pool goes on by itself. -/
theorem NetInv.pool_step (h : NetInv b net) {p : ThreadPool (RequestTask ep World)}
    (hheld : ∀ q, held q p ≤ held q net.server.pool) :
    NetInv b { net with server := { net.server with pool := p } } := by
  refine ⟨h.length, h.nodup, h.known, h.executed, h.callers, h.apart, ?_⟩
  intro n a k c ha hk hc
  exact (h.links n a k c ha hk hc).pool_step (fun q _ => hheld q) (fun _ hmem => hmem)
    (fun _ hmem _ => hmem)

/-- The request of connection `n` goes into the pool. -/
theorem NetInv.routes (h : NetInv b net) {n : Nat} {a : Accepted} {protocol body : Str}
    {entry : Entry ep World} {p : ThreadPool (RequestTask ep World)}
    (ha : net.server.conns[n]? = some a) (hr : a.conn.reading = .bodyDone false)
    (hp : protocolSlice a.conn.reqHead a.conn.protocolAndBody = some protocol)
    (hb : bodySlice a.conn.reqHead a.conn.protocolAndBody = some body)
    (hf : b.find a.conn.reqHead.mode protocol = some entry)
    (hadd : net.server.pool.step (.addTask a.io ⟨entry, body, n, none⟩) = some p) :
    NetInv b { net with server :=
      { net.server.setConn n a (a.conn.stopTimer.setReading .routing) with pool := p } } := by
  obtain ⟨hlt, -⟩ := List.getElem?_eq_some_iff.mp ha
  have hk := List.getElem?_eq_getElem (h.length.symm ▸ hlt)
  have hc := List.getElem?_eq_getElem (h.known _ (List.mem_of_getElem? hk))
  have hheld : ∀ q, held q p ≤ held q net.server.pool + weight (q ⟨entry, body, n, none⟩) :=
    fun q => held_step q (EasyRpcThreadPool.step_cases hadd)
  refine h.at_conn a (a.conn.stopTimer.setReading .routing) p net.runs hk hc ?_
    (List.set_getElem_self _).symm rfl rfl (h.callers _ _ hc) ?_ (fun _ hmem => hmem)
    (fun _ hmem _ => hmem) ?_
  · rw [h.executed]
    rfl
  · intro m hne
    exact held_other (Ne.symm hne) hheld
  · exact (h.links n a _ _ ha hk hc).routes (h.callers _ _ hc) hr hp hb hf hheld rfl

/-- Steps of the server that concern no call. -/
theorem NetInv.server (h : NetInv b net) {a : EasyRpcServer.Act ep World}
    {s : Server ep World} (hint : isInternal a = true) (hs : Effect b net.server a s) :
    NetInv b { net with server := s } := by
  cases hs with
  | accepts | headReads | bodyReads | runs | ends => cases hint
  | headFails ha hr => exact h.conn_step ha fun c hl => hl.quiet_step rfl
  | headAccepted ha hr hopen hv => exact h.conn_step ha fun c hl => hl.head_accepted hr hv
  | headRefused ha hr => exact h.conn_step ha fun c hl => hl.quiet_step rfl
  | bodyFails ha hr => exact h.conn_step ha fun c hl => hl.quiet_step rfl
  | bodyRefused ha hr => exact h.conn_step ha fun c hl => hl.quiet_step rfl
  | routes ha hr hopen hp hb hf hadd => exact h.routes ha hr hp hb hf hadd
  | returns ha hr hidle => exact h.conn_step ha fun c hl => hl.quiet_step rfl
  | expires ha hwaiting => exact h.conn_step ha fun c hl => hl.same_step rfl rfl rfl rfl
  | handles ha hready hkeeps hr =>
      exact h.conn_step ha fun c hl =>
        hl.same_step hr hkeeps.head hkeeps.reqHead hkeeps.protocolAndBody
  | destructs ha hr hfuncs hnone =>
      refine h.conn_step ha fun c hl => hl.quiet_step ?_
      show quiet (Connection.reading _) = true
      rw [Connection.destruct, Connection.setTimer_reading, Connection.disconnect_reading,
        Connection.stopTimer_reading, hr]
      rfl
  | @pool a p hp' hp =>
      refine h.pool_step fun q => ?_
      have hle := held_step q (EasyRpcThreadPool.step_cases hp)
      cases a with
      | addTask j task => cases hp'
      | worker | wakeWorker | producer | wakeProducer | stop | terminate => exact hle

/-- A handler runs for its connection, which had no run before. -/
theorem NetInv.runs_handler (h : NetInv b net) (hserver : ServerInv b net.server) {i : Nat}
    {task : RequestTask ep World} (call : Call World)
    (hrun : net.server.pool.workers[i]? = some (.run task)) (hnew : task.result = none) :
    NetInv b { net with
      server := { net.server with
        pool := net.server.pool.setWorker i
          (.run { task with result := some (task.entry.outcome task.body call) })
        executed := net.server.executed ++ [task.conn] }
      runs := net.runs ++ [⟨task.conn, task.entry, task.body, call⟩] } := by
  have hlt := hserver.conn_of_run hrun
  have ha := List.getElem?_eq_getElem hlt
  have hk := List.getElem?_eq_getElem (h.length.symm ▸ hlt)
  have hc := List.getElem?_eq_getElem (h.known _ (List.mem_of_getElem? hk))
  have hfirst : ∀ run ∈ net.runs, run.conn ≠ task.conn := by
    have hwaiting : waiting task.conn task = true := by
      rw [waiting, beq_iff_eq.mpr rfl, hnew]
      rfl
    have honce := (hserver.conns _ _ ha).once
    have hpos := held_pos (q := waiting task.conn) hrun hwaiting
    have hzero : net.server.executed.count task.conn = 0 := by omega
    intro run hmem heq
    refine List.count_eq_zero.mp hzero ?_
    rw [← h.executed, ← heq]
    exact List.mem_map_of_mem hmem
  refine h.at_conn net.server.conns[task.conn] net.server.conns[task.conn].conn _ _ hk hc ?_
    (List.set_getElem_self _).symm rfl rfl (h.callers _ _ hc) ?_
    (fun _ hmem => List.mem_append_left _ hmem) ?_
    ((h.links _ _ _ _ ha hk hc).handler_runs hrun rfl hfirst call)
  · rw [List.map_append, h.executed]
    exact congrArg (fun conns => (⟨_, conns, _⟩ : Server ep World))
      (List.set_getElem_self hlt).symm
  · intro m hne
    have hother : RequestTask.conn { task with
        result := some (task.entry.outcome task.body call) } ≠ m := Ne.symm hne
    refine held_other hother ?_
    exact fun q => Nat.le_of_add_right_le (Nat.le_of_eq (held_setWorker q hrun (.run _)))
  · intro run hmem hne
    rcases List.mem_append.mp hmem with hmem | hmem
    · exact hmem
    · rw [List.mem_singleton] at hmem
      exact absurd (congrArg Run.conn hmem) hne

/-- A task ends on its connection, and what it sends is on its way to the call. -/
theorem NetInv.responds (h : NetInv b net) (hserver : ServerInv b net.server) {i k : Nat}
    {task : RequestTask ep World} {c : Caller} {a : Accepted}
    (hrun : net.server.pool.workers[i]? = some (.run task))
    (hk : net.accepted[task.conn]? = some k) (hc : net.callers[k]? = some c)
    (ha : net.server.conns[task.conn]? = some a) (hdone : task.result.isSome = true)
    (result : Except String Str) (remains : Remains responseHeaderLen)
    (ec : Option (String × Nat)) :
    NetInv b { net with
      server := { net.server.setConn task.conn a
          (a.conn.respond result remains (ec.map Prod.fst)) with
        pool := net.server.pool.setWorker i .notify }
      callers := net.callers.set k { c with
        response := c.response.write (responseBytes a.conn task remains ec)
        responseHead := remains } } := by
  have hI := h.callers k c hc
  have honly : held (answering task.conn) net.server.pool ≤ 1 := by
    have honce := (hserver.conns _ _ ha).once
    have hwritten := (hserver.conns _ _ ha).written
    omega
  refine h.at_conn a _ (net.server.pool.setWorker i .notify) net.runs hk hc ?_ rfl rfl rfl
    ⟨hI.unsent, hI.sent, hI.received⟩ ?_ (fun _ hmem => hmem) (fun _ hmem _ => hmem)
    ((h.links _ _ _ _ ha hk hc).ends hrun rfl hdone honly result remains ec)
  · rw [h.executed]
    rfl
  · intro m _ q _
    exact Nat.le_of_add_right_le (Nat.le_of_eq (held_setWorker q hrun .notify))

/-- A call comes to the server. -/
theorem NetInv.accept (h : NetInv b net) (hserver : ServerInv b net.server)
    {k io timeoutMilli : Nat} (hk : k < net.callers.length) (hnot : k ∉ net.accepted) :
    NetInv b { net with
      server := { net.server with
        conns := net.server.conns ++ [⟨(Connection.create timeoutMilli).start, io⟩] }
      accepted := net.accepted ++ [k] } := by
  refine ⟨?_, ?_, ?_, h.executed, h.callers, ?_, ?_⟩
  · rw [List.length_append, List.length_append, h.length]
    rfl
  · refine List.nodup_append.mpr ⟨h.nodup, List.pairwise_singleton _ k, ?_⟩
    intro x hx y hy
    rw [List.mem_singleton] at hy
    subst hy
    exact fun heq => hnot (heq ▸ hx)
  · intro m hm
    rcases List.mem_append.mp hm with hm | hm
    · exact h.known m hm
    · rw [List.mem_singleton] at hm
      exact hm ▸ hk
  · intro m c hm hnot'
    exact h.apart m c hm fun hmem => hnot' (List.mem_append_left _ hmem)
  · intro n a j c ha hj hc
    rcases Nat.lt_or_ge n net.server.conns.length with hlt | hge
    · rw [List.getElem?_append_left hlt] at ha
      rw [List.getElem?_append_left (h.length.symm ▸ hlt)] at hj
      exact h.links n a j c ha hj hc
    · -- the new connection: nothing has been read, and no task is its own
      have hj' := List.mem_of_getElem? (List.getElem?_append_right (h.length.symm ▸ hge) ▸ hj)
      have ha' := List.mem_of_getElem? (List.getElem?_append_right hge ▸ ha)
      rw [List.mem_singleton] at hj' ha'
      subst hj' ha'
      obtain ⟨hnone, hzero⟩ := hserver.fresh n hge
      obtain ⟨htaken, hwritten⟩ := h.apart j c hc hnot
      refine ⟨fun _ => htaken, nofun, nofun, nofun, allHeld_of_none hnone, ?_, Or.inl hwritten⟩
      intro run hmem hconn
      refine absurd ?_ (List.count_eq_zero.mp hzero)
      rw [← h.executed, ← hconn]
      exact List.mem_map_of_mem hmem

/-- A new call. -/
theorem NetInv.connect (h : NetInv b net) (protocol : Str) (mode : CallMode) (body : Str) :
    NetInv b { net with callers := net.callers ++ [.connect protocol mode body] } := by
  have hnew : ∀ (k : Nat) c, (net.callers ++ [Caller.connect protocol mode body])[k]? = some c →
      net.callers[k]? = some c
      ∨ net.callers.length ≤ k ∧ c = .connect protocol mode body := by
    intro k c hc
    rcases Nat.lt_or_ge k net.callers.length with hlt | hge
    · rw [List.getElem?_append_left hlt] at hc
      exact Or.inl hc
    · have hmem := List.mem_of_getElem? (List.getElem?_append_right hge ▸ hc)
      exact Or.inr ⟨hge, List.mem_singleton.mp hmem⟩
  refine ⟨h.length, h.nodup, ?_, h.executed, ?_, ?_, ?_⟩
  · intro k hk
    rw [List.length_append]
    exact Nat.lt_of_lt_of_le (h.known k hk) (Nat.le_add_right _ _)
  · intro k c hc
    rcases hnew k c hc with hold | ⟨-, rfl⟩
    · exact h.callers k c hold
    · exact ⟨fun _ => ⟨rfl, rfl⟩, List.nil_prefix, rfl⟩
  · intro k c hc hnot
    rcases hnew k c hc with hold | ⟨-, rfl⟩
    · exact h.apart k c hold hnot
    · exact ⟨rfl, rfl⟩
  · intro n a k c ha hk hc
    rcases hnew k c hc with hold | ⟨hge, -⟩
    · exact h.links n a k c ha hk hold
    · exact absurd (h.known k (List.mem_of_getElem? hk)) (Nat.not_lt.mpr hge)

/-- **STEP**: every step of the network keeps the invariant. -/
theorem NetInv.step (h : NetInv b net) (hserver : ServerInv b net.server) {a : Act ep World}
    (hs : Step b net a net') : NetInv b net' := by
  cases hs with
  | connects protocol mode body => exact h.connect protocol mode body
  | writes hc hmove => exact h.caller_step hc (write_step (h.callers _ _ hc) hmove)
  | readsHead hc hmove => exact h.caller_step hc (readHead_step (h.callers _ _ hc) hmove)
  | readsBody hc hmove => exact h.caller_step hc (readBody_step (h.callers _ _ hc) hmove)
  | accepts hk hnot hio => exact h.accept hserver hk hnot
  | headReads hk hc ha hr hopen hread =>
      exact h.reads hk hc hread ((h.links _ _ _ _ ha hk hc).head_reads hr hread)
  | bodyReads hk hc ha hr hopen hread =>
      exact h.reads hk hc hread ((h.links _ _ _ _ ha hk hc).body_reads hr hread)
  | @runs i task call hrun hnew => exact h.runs_handler hserver call hrun hnew
  | @responds i k remains ec task c a outcome result hrun hk hc ha hres hcaught =>
      exact h.responds hserver hrun hk hc ha (by rw [hres]; rfl) result remains ec
  | server hint heffect => exact h.server hint heffect

end NetSteps

/-! ## Runs of the network -/

section Runs

variable {b : Bindings ep World} {net net' : Network ep World}

/-- **THE SERVER'S PART** of a run is a run of the server. -/
theorem server_of_reaches {ok : Network ep World → Act ep World → Prop}
    (h : Reaches (remoteSystem b) ok net) : Reachable (serverSystem b) net.server := by
  refine h.simulation (J := fun _ => True) Network.server (fun _ _ => trivial) ?_ ?_
  · rintro net ⟨s, hs, rfl⟩
    exact hs
  · intro net a net' _ _ hs
    exact server_step hs

/-- The network's invariant holds in every reachable state, whatever the runs are restricted to.
    -/
theorem netInv_of_reaches {ok : Network ep World → Act ep World → Prop}
    (h : Reaches (remoteSystem b) ok net) : NetInv b net := by
  refine h.invariant_of (J := fun net => ServerInv b net.server) ?_ ?_ ?_
  · exact fun net h => serverInv_of_reachable (server_of_reaches h)
  · rintro net ⟨s, ⟨n, m, rfl⟩, rfl⟩
    exact ⟨rfl, List.nodup_nil, nofun, rfl, nofun, nofun, nofun⟩
  · intro net a net' hserver hI _ hs
    exact hI.step hserver (step_cases hs)

end Runs

/-! ## Answers and calls -/

/-- The runs of handlers for call `k`. -/
def Network.runsOf (net : Network ep World) (k : Nat) : List (Run ep World) :=
  net.runs.filter fun run => net.accepted[run.conn]? == some k

section Calls

variable {b : Bindings ep World} {net : Network ep World}

theorem mem_runsOf {k : Nat} {run : Run ep World} :
    run ∈ net.runsOf k ↔ run ∈ net.runs ∧ net.accepted[run.conn]? = some k := by
  rw [Network.runsOf, List.mem_filter, beq_iff_eq]

/-- One run a call at most. -/
theorem NetInv.length_runsOf (h : NetInv b net) (hserver : ServerInv b net.server) (k : Nat) :
    (net.runsOf k).length ≤ 1 := by
  by_cases hk : k ∈ net.accepted
  · obtain ⟨n, hn⟩ := List.mem_iff_getElem?.mp hk
    have hlt : n < net.server.conns.length := h.length ▸ (List.getElem?_eq_some_iff.mp hn).1
    have honce := (hserver.conns _ _ (List.getElem?_eq_getElem hlt)).once
    have hcount : (net.runsOf k).length = net.server.executed.count n := by
      rw [← h.executed, Network.runsOf, ← List.countP_eq_length_filter, List.count,
        List.countP_map]
      refine List.countP_congr fun run _ => ?_
      rw [beq_iff_eq, Function.comp_apply, beq_iff_eq]
      constructor
      · exact fun hrun => h.conn_unique hrun hn
      · rintro rfl
        exact hn
    omega
  · have hnil : net.runsOf k = [] := by
      refine List.eq_nil_iff_forall_not_mem.mpr fun run hmem => ?_
      exact hk (List.mem_of_getElem? (mem_runsOf.mp hmem).2)
    rw [hnil]
    exact Nat.zero_le 1

/-- What a call is handed of a result: as much of it as the header in front of it says, and nothing
    if that is more than the limit or more than there is. -/
def handedOver (result : Str) (remains : Remains responseHeaderLen) : Option (List UInt8) :=
  let len := (wordAt (responseHead result remains).bytes 0).toNat
  if 8388608 < len then none else if len ≤ result.length then some (result.take len) else none

/-- A result whose header says its length is handed over whole, if at all. -/
theorem handedOver_whole {result : Str} {remains : Remains responseHeaderLen}
    (h : (wordAt (responseHead result remains).bytes 0).toNat = result.length)
    {ret : List UInt8} (hover : handedOver result remains = some ret) : ret = result := by
  simp only [handedOver, h, List.take_length] at hover
  split at hover
  · cases hover
  · rw [if_pos (Nat.le_refl _)] at hover
    exact (Option.some.inj hover).symm

/-- The header that is kept says the length of a result that fits its word. -/
theorem handedOver_of_lt {result : Str} (h : result.length < 2 ^ 32) {ret : List UInt8}
    (hover : handedOver result .kept = some ret) : ret = result := by
  refine handedOver_whole ?_ hover
  rw [responseHead_kept, narrowedSize_of_lt h]

/-- The response header that was read is the one that was sent. -/
theorem bodyLen_of_begins {head : CharArray responseHeaderLen} {rest : List UInt8}
    {result : Str} {remains : Remains responseHeaderLen}
    (h : head.bytes ++ rest <+: responseFrame result remains) :
    (ResponseHeader.ofBytes head).bodyLen = wordAt (responseHead result remains).bytes 0
    ∧ rest <+: result := by
  rw [responseFrame_eq] at h
  obtain ⟨hhead, hrest⟩ := prefix_cut h
    (head.length_eq.trans (responseHead result remains).length_eq.symm)
  refine ⟨?_, hrest⟩
  rw [ResponseHeader.ofBytes, hhead]

/-- What a call makes of the beginning of a response frame that it has read to its end. -/
theorem handedOver_of_begins {head : CharArray responseHeaderLen} {resHead : ResponseHeader}
    {body : List UInt8} {result : Str} {remains : Remains responseHeaderLen}
    (hbegins : head.bytes ++ body <+: responseFrame result remains)
    (hcheck : RpcSession.checkHead head = .ok resHead)
    (hlen : body.length = resHead.bodyLen.toNat) : handedOver result remains = some body := by
  obtain ⟨hword, hbody⟩ := bodyLen_of_begins hbegins
  simp only [RpcSession.checkHead, hword, gt_iff_lt, UInt32.lt_iff_toNat_lt,
    maxBufferLen_toNat] at hcheck
  split at hcheck
  · cases hcheck
  · rename_i hle
    cases hcheck
    rw [hword] at hlen
    simp only [handedOver]
    rw [if_neg hle, ← hlen, if_pos hbody.length_le, ← List.prefix_iff_eq_take.mp hbody]

/-- A call to which something has come back was accepted, and what came back is the beginning of
    the frame of one of its runs. -/
theorem NetInv.answered (hI : NetInv b net) {k : Nat} {c : Caller}
    (hc : net.callers[k]? = some c) {head : CharArray responseHeaderLen} {rest : List UInt8}
    (hbegins : head.bytes ++ rest <+: c.response.written) :
    ∃ run ∈ net.runsOf k, (Truthful c → Asked b c run.entry run.body)
      ∧ ∃ result, run.outcome = .ok result
        ∧ c.response.written <+: responseFrame result c.responseHead := by
  have hne : c.response.written ≠ [] := by
    intro hnil
    rw [hnil, List.prefix_nil] at hbegins
    have hzero := congrArg List.length (List.append_eq_nil_iff.mp hbegins).1
    rw [head.length_eq] at hzero
    exact absurd hzero (by decide)
  have hk : k ∈ net.accepted := by
    by_contra hnot
    exact hne (hI.apart k c hc hnot).2
  obtain ⟨n, hn⟩ := List.mem_iff_getElem?.mp hk
  have hlt : n < net.server.conns.length := hI.length ▸ (List.getElem?_eq_some_iff.mp hn).1
  have hlink := hI.links n _ k c (List.getElem?_eq_getElem hlt) hn hc
  rcases hlink.response with hnil | ⟨-, run, hmem, hconn, hanswer⟩
  · exact absurd hnil hne
  · exact ⟨run, mem_runsOf.mpr ⟨hmem, hconn ▸ hn⟩, hlink.asked run hmem hconn, hanswer⟩

/-- A call that has returned has one run, whose result it has been handed. -/
theorem NetInv.returned (hI : NetInv b net) (hserver : ServerInv b net.server) {k : Nat}
    {c : Caller} (hc : net.callers[k]? = some c) {ret : List UInt8}
    (hret : c.stage = .returned ret) :
    ∃ run result, net.runsOf k = [run] ∧ run.outcome = .ok result
      ∧ handedOver result c.responseHead = some ret
      ∧ (Truthful c → b.find c.mode c.protocol = some run.entry ∧ run.body = c.body) := by
  have hreceived := (hI.callers k c hc).received
  rw [Received, hret] at hreceived
  obtain ⟨head, resHead, htaken, hcheck, hlen⟩ := hreceived
  have hbegins : head.bytes ++ ret <+: c.response.written := htaken ▸ c.response.taken_begins
  obtain ⟨run, hrun, hasked, result, houtcome, hframe⟩ := hI.answered hc hbegins
  obtain ⟨only, honly⟩ := List.length_eq_one_iff.mp
    (Nat.le_antisymm (hI.length_runsOf hserver k) (List.length_pos_of_mem hrun))
  rw [honly, List.mem_singleton] at hrun
  subst hrun
  refine ⟨run, result, honly, houtcome,
    handedOver_of_begins (hbegins.trans hframe) hcheck hlen, fun htruthful => ?_⟩
  exact ⟨(hasked htruthful).entry, (hasked htruthful).body⟩

/-- Every run is for a call that was accepted. -/
theorem NetInv.run_asked (hI : NetInv b net) (hserver : ServerInv b net.server)
    {run : Run ep World} (hmem : run ∈ net.runs) :
    ∃ k c, net.accepted[run.conn]? = some k ∧ net.callers[k]? = some c
      ∧ (Truthful c → Asked b c run.entry run.body) := by
  have hlt : run.conn < net.server.conns.length := by
    refine Nat.lt_of_not_le fun hge => ?_
    refine absurd ?_ (List.count_eq_zero.mp (hserver.fresh run.conn hge).2)
    rw [← hI.executed]
    exact List.mem_map_of_mem hmem
  have hk := List.getElem?_eq_getElem (hI.length.symm ▸ hlt)
  have hc := List.getElem?_eq_getElem (hI.known _ (List.mem_of_getElem? hk))
  have hlink := hI.links _ _ _ _ (List.getElem?_eq_getElem hlt) hk hc
  exact ⟨_, _, hk, hc, hlink.asked run hmem rfl⟩

/-- **A CALL RETURNS ITS OWN ANSWER**: for a call that has returned a handler has run exactly
    once, and what the call returns is what it is handed of the result of that run, whatever other
    calls and connections have done: all of it, if the header of the response was still there when
    it was sent and the result fits its word.  If the request went out under its own header, and
    fits it, the run was of the handler that its protocol and mode name, on its body. -/
theorem returns_own_answer (h : Reachable (remoteSystem b) net) {k : Nat} {c : Caller}
    (hc : net.callers[k]? = some c) {ret : List UInt8} (hret : c.stage = .returned ret) :
    ∃ run result, net.runsOf k = [run] ∧ run.outcome = .ok result
      ∧ handedOver result c.responseHead = some ret
      ∧ (c.responseHead = .kept → result.length < 2 ^ 32 → ret = result)
      ∧ (Fits c → c.requestHead = .kept →
        b.find c.mode c.protocol = some run.entry ∧ run.body = c.body) := by
  obtain ⟨run, result, hruns, houtcome, hover, hasked⟩ :=
    (netInv_of_reaches h).returned (serverInv_of_reachable (server_of_reaches h)) hc hret
  refine ⟨run, result, hruns, houtcome, hover, ?_, ?_⟩
  · intro hkept hlt
    rw [hkept] at hover
    exact handedOver_of_lt hlt hover
  · exact fun hfits hkept => hasked (.of_kept hfits hkept)

/-- **AT MOST ONCE**: no call has its handler run twice, and every run is for an accepted call;
    if that call's request went out under its own header, and fits it, the request has been sent
    whole, is within the limits and goes to the entry it names. -/
theorem runs_at_most_once (h : Reachable (remoteSystem b) net) :
    (∀ k, (net.runsOf k).length ≤ 1)
    ∧ ∀ run ∈ net.runs, ∃ k c, net.accepted[run.conn]? = some k ∧ net.callers[k]? = some c
        ∧ (Fits c → c.requestHead = .kept → Asked b c run.entry run.body) := by
  have hI := netInv_of_reaches h
  have hserver := serverInv_of_reachable (server_of_reaches h)
  refine ⟨hI.length_runsOf hserver, fun run hmem => ?_⟩
  obtain ⟨k, c, hk, hc, hasked⟩ := hI.run_asked hserver hmem
  exact ⟨k, c, hk, hc, fun hfits hkept => hasked (.of_kept hfits hkept)⟩

end Calls

/-- One call of the echo, from its connect to its return. -/
def oneCall : List (Act bytePack Unit) :=
  [.connect [101] .nonRaw [7], .write 0 .kept none, .accept 0 0 0, .headRead 0,
    .server (.headHandler 0), .bodyRead 0, .server (.bodyHandler 0),
    .server (.pool (.producer 0 none)), .server (.pool (.producer 0 none)),
    .server (.pool (.producer 0 none)), .server (.routeReturns 0),
    .server (.pool (.worker 0 none)), .runHandler 0 ⟨(), [], []⟩, .respond 0 .kept none,
    .readHead 0 none, .readBody 0 none]

/-- One call through the network: it returns what its one run came to. -/
theorem oneCall_runs : ∃ (net : Network bytePack Unit) (c : Caller) (run : Run bytePack Unit)
    (ret : List UInt8), Reachable (remoteSystem echoBindings) net
    ∧ net.callers[0]? = some c ∧ c.stage = .returned ret ∧ Fits c ∧ c.requestHead = .kept
    ∧ c.responseHead = .kept ∧ net.runs = [run] ∧ net.runsOf 0 = [run]
    ∧ run.outcome = .ok [7] := by
  have hstart : (remoteSystem echoBindings).start ⟨⟨.initial 1 1, [], []⟩, [], [], []⟩ :=
    ⟨_, ⟨1, 1, rfl⟩, rfl⟩
  have hexec : exec (remoteSystem echoBindings) ⟨⟨.initial 1 1, [], []⟩, [], [], []⟩ oneCall
      = some _ := rfl
  refine ⟨_, _, _, _, (Reachable.start hstart).exec hexec, rfl, rfl, ?_, rfl, rfl, rfl, rfl, rfl⟩
  show [101].length + [7].length < 2 ^ 32
  decide

/-- The result is returned whole, and it is that of the entry that the call names. -/
theorem returns_own_answer_echo : ∃ (net : Network bytePack Unit) (c : Caller)
    (run : Run bytePack Unit), net.callers[0]? = some c ∧ net.runsOf 0 = [run]
      ∧ run.outcome = .ok [7] ∧ c.stage = .returned [7]
      ∧ echoBindings.find c.mode c.protocol = some run.entry ∧ run.body = c.body := by
  obtain ⟨net, c, run, ret, hreach, hc, hret, hfits, hhead, hresponse, -, hruns, houtcome⟩ :=
    oneCall_runs
  obtain ⟨run', result, hruns', houtcome', -, hwhole, hasked⟩ :=
    returns_own_answer hreach hc hret
  cases hruns.symm.trans hruns'
  cases houtcome.symm.trans houtcome'
  cases hwhole hresponse (by decide)
  exact ⟨net, c, run, hc, hruns, houtcome, hret, hasked hfits hhead⟩

theorem runs_at_most_once_echo : ∃ (net : Network bytePack Unit) (run : Run bytePack Unit),
    net.runs = [run] ∧ (∀ k, (net.runsOf k).length ≤ 1)
    ∧ ∃ k c, net.accepted[run.conn]? = some k ∧ net.callers[k]? = some c
        ∧ (Fits c → c.requestHead = .kept → Asked echoBindings c run.entry run.body) := by
  obtain ⟨net, c, run, ret, hreach, -, -, -, -, -, hruns, -, -⟩ := oneCall_runs
  obtain ⟨honce, hasked⟩ := runs_at_most_once hreach
  exact ⟨net, run, hruns, honce, hasked run (hruns ▸ List.mem_cons_self)⟩

end EasyRpcRemoteCall
