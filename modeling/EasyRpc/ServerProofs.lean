import EasyRpc.RouterDispatchProofs
import EasyRpc.TaskCustodyProofs

/-! # The server — many connections, one router, one pool

    Any number of connections are served by I/O threads, which run their read handlers and their
    timers and call `route`, and by the workers of the pool, which run the tasks and write the
    responses.  A task carries the body and the connection of its request by value and the entry
    its protocol was bound to; the bindings stay as they are and the pool is not stopped.

    A request goes from its connection into one task, from there into at most one run, and from
    there into at most one frame, on the connection it came from (`responses_keep_to_requests`).
    The invariant counts, for each connection, the tasks that wait, those that have run, and the
    frames. -/

namespace EasyRpcServer

open Transition ThreadTable Throwing EasyRpcAtimer EasyRpcWire EasyRpcConnection
open EasyRpcDispatch EasyRpcThreadPool EasyRpcTaskCustody

variable {ep : Easypack} {World : Type}

/-- The maps of the router. -/
structure Bindings (ep : Easypack) (World : Type) where
  invokerMap : Str → Option (InvokerFunction ep World)
  invokerRawMap : Str → Option (InvokerFunctionRaw World)

/-- The lookup of `route`. -/
def Bindings.find (b : Bindings ep World) (mode : CallMode) (protocol : Str) :
    Option (Entry ep World) :=
  if mode = .nonRaw then (b.invokerMap protocol).map .invoker
  else if mode = .raw then (b.invokerRawMap protocol).map .raw
  else none

/-- The task of a request, running or not. -/
structure RequestTask (ep : Easypack) (World : Type) where
  entry : Entry ep World
  body : Str
  conn : Nat
  -- inside `operator()`: what the function has left, once it has ended
  result : Option (Except Exn Str)

/-- An accepted connection, with the I/O thread that serves it. -/
structure Accepted where
  conn : Connection
  io : Nat

/-- The server: the router's pool, the connections and the tasks whose function has run. -/
structure Server (ep : Easypack) (World : Type) where
  pool : ThreadPool (RequestTask ep World)
  conns : List Accepted
  -- the connections whose task has run, one entry a run
  executed : List Nat

namespace Server

variable (s : Server ep World)

/-- One connection replaced by its next state, on the I/O thread it had. -/
def setConn (n : Nat) (a : Accepted) (c : Connection) : Server ep World :=
  { s with conns := s.conns.set n ⟨c, a.io⟩ }

/-- The I/O thread is inside no call of `add_task` and in no route call. -/
def ioFree (io : Nat) : Bool :=
  (match s.pool.producers[io]? with
    | some .idle => true
    | _ => false)
  && s.conns.all fun a => a.io != io || a.conn.reading != .routing

/-- A step of connection `n` that concerns nobody else. -/
def onConn (n : Nat) (f : Accepted → Option Connection) : Option (Server ep World) :=
  match s.conns[n]? with
  | none => none
  | some a => (f a).map (s.setConn n a)

/-- The handler of the body read, with the lookup of `route`; a bound request goes on into
    `add_task`. -/
def bodyHandler (b : Bindings ep World) (n : Nat) : Option (Server ep World) :=
  match s.conns[n]? with
  | none => none
  | some a =>
      match a.conn.bodyHandler with
      | none => none
      | some (.returned c) => some (s.setConn n a c)
      | some (.route c protocol body mode) =>
          match b.find mode protocol with
          | none => some (s.setConn n a (c.routeReturned false))
          | some entry =>
              (s.pool.step (.addTask a.io ⟨entry, body, n, none⟩)).map fun p =>
                { s.setConn n a c with pool := p }

/-- A worker runs the function of its task; `call` is what the function finds, whatever other
    handlers have done to the world meanwhile. -/
def runHandler (i : Nat) (call : Call World) : Option (Server ep World) :=
  match s.pool.workers[i]? with
  | some (.run task) =>
      match task.result with
      | none =>
          let result := some (task.entry.outcome task.body call)
          some { s with
            pool := s.pool.setWorker i (.run { task with result := result })
            executed := s.executed ++ [task.conn] }
      | some _ => none
  | _ => none

/-- The worker ends its task on the connection: it writes the result or disconnects. -/
def endTask (i : Nat) (task : RequestTask ep World) (result : Except String Str)
    (remains : Remains responseHeaderLen) (ec : Option String) : Option (Server ep World) :=
  match s.conns[task.conn]? with
  | none => none
  | some a =>
      (s.pool.step (.worker i none)).map fun p =>
        { s.setConn task.conn a (a.conn.respond result remains ec) with pool := p }

/-- The rest of `operator()`; a value that is no `std::exception` ends the process (`none`). -/
def respond (i : Nat) (remains : Remains responseHeaderLen) (ec : Option String) :
    Option (Server ep World) :=
  match s.pool.workers[i]? with
  | some (.run task) =>
      match task.result with
      | some (.ok result) => s.endTask i task (.ok result) remains ec
      | some (.error (.std what)) => s.endTask i task (.error what) remains ec
      | _ => none
  | _ => none

/-- The steps of the pool that neither begin nor end a task, and do not stop the pool. -/
def internal : Act (RequestTask ep World) → Bool
  | .worker i _ =>
      match s.pool.workers[i]? with
      | some (.run _) => false
      | _ => true
  | .wakeWorker _ => true
  | .producer _ _ => true
  | .wakeProducer _ => true
  | _ => false

/-- A step of the pool inside of itself. Tasks come in and are run through `bodyHandler`,
    `runHandler` and `respond` only. -/
def poolStep (a : Act (RequestTask ep World)) : Option (Server ep World) :=
  if s.internal a then (s.pool.step a).map fun p => { s with pool := p } else none

end Server

/-- The tasks of connection `n`. -/
def ofConn (n : Nat) (task : RequestTask ep World) : Bool := task.conn == n

/-- What can happen on the server: the handlers of each connection, the workers at a task, and the
    pool itself. -/
inductive Act (ep : Easypack) (World : Type) where
  | accept (io timeoutMilli : Nat)
  | headRead (n : Nat) (result : Option (CharArray requestHeaderLen))
  | headHandler (n : Nat)
  | bodyRead (n : Nat) (result : Option (List UInt8))
  | bodyHandler (n : Nat)
  | routeReturns (n : Nat)
  | expire (n : Nat)
  | timerHandler (n k : Nat)
  -- the last owner of connection `n` is dropped
  | destruct (n : Nat)
  | pool (a : EasyRpcThreadPool.Act (RequestTask ep World))
  | runHandler (i : Nat) (call : Call World)
  | respond (i : Nat) (remains : Remains responseHeaderLen) (ec : Option String)

/-- One step of the server. Two handlers of one connection never run at once, since its I/O thread
    runs them one by one. -/
def Server.step (b : Bindings ep World) (s : Server ep World) :
    Act ep World → Option (Server ep World)
  | .accept io timeoutMilli =>
      if io < s.pool.producers.length then
        some { s with conns := s.conns ++ [⟨(Connection.create timeoutMilli).start, io⟩] }
      else none
  | .headRead n result => s.onConn n fun a => a.conn.headRead result
  | .headHandler n => s.onConn n fun a => if s.ioFree a.io then a.conn.headHandler else none
  | .bodyRead n result => s.onConn n fun a => a.conn.bodyRead result
  | .bodyHandler n =>
      match s.conns[n]? with
      | none => none
      | some a => if s.ioFree a.io then s.bodyHandler b n else none
  | .routeReturns n => s.onConn n fun a =>
      match a.conn.reading, s.pool.producers[a.io]? with
      | .routing, some .idle => some (a.conn.routeReturned true)
      | _, _ => none
  | .expire n => s.onConn n fun a =>
      if a.conn.timer.waiting ≠ [] then some (a.conn.setTimer a.conn.timer.expire) else none
  | .timerHandler n k => s.onConn n fun a =>
      if s.ioFree a.io then a.conn.timerHandler k else none
  | .destruct n => s.onConn n fun a =>
      if a.conn.reading = .idle ∧ a.conn.timer.funcVec = [] ∧ held (ofConn n) s.pool = 0 then
        some a.conn.destruct
      else none
  | .pool a => s.poolStep a
  | .runHandler i call => s.runHandler i call
  | .respond i remains ec => s.respond i remains ec

/-- A server with any number of workers and I/O threads, before the first connection. -/
def serverSystem (b : Bindings ep World) : System (Server ep World) (Act ep World) where
  start s := ∃ n m, s = ⟨.initial n m, [], []⟩
  step := Server.step b

/-! ## The property -/

/-- The frame is the response to the request read on the connection: to the protocol, the mode
    and the body that its header and its buffer hold.  Its four header bytes are what was left of
    the header. -/
def Answers (b : Bindings ep World) (c : Connection) (frame : List UInt8) : Prop :=
  ∃ protocol body entry call result remains,
    c.reqHead = RequestHeader.ofBytes c.head
    ∧ protocolSlice c.reqHead c.protocolAndBody = some protocol
    ∧ bodySlice c.reqHead c.protocolAndBody = some body
    ∧ b.find c.reqHead.mode protocol = some entry
    ∧ entry.outcome body call = .ok result
    ∧ frame = (Connection.getBuffer ⟨narrowedSize result⟩ remains result).flatten

/-- The task is the one of the request read on the connection. -/
def Requested (b : Bindings ep World) (c : Connection) (task : RequestTask ep World) : Prop :=
  c.reqHead = RequestHeader.ofBytes c.head
  ∧ (∃ protocol, protocolSlice c.reqHead c.protocolAndBody = some protocol
    ∧ b.find c.reqHead.mode protocol = some task.entry)
  ∧ bodySlice c.reqHead c.protocolAndBody = some task.body
  ∧ ∀ result, task.result = some result →
      ∃ call, result = task.entry.outcome task.body call

/-- Its function has not run yet. -/
def waiting (n : Nat) (task : RequestTask ep World) : Bool :=
  task.conn == n && task.result.isNone

/-- Its function has run, its response is to come. -/
def answering (n : Nat) (task : RequestTask ep World) : Bool :=
  task.conn == n && task.result.isSome

/-- The reads go on: no route call has been made. -/
def early : Reading → Bool
  | .idle => false
  | .routing => false
  | _ => true

/-- The header read by the connection has been decoded. -/
def Decoded (c : Connection) : Prop :=
  c.reading = .body ∨ (∃ ec, c.reading = .bodyDone ec) →
    c.reqHead = RequestHeader.ofBytes c.head

/-- Where no body is awaited, the header need not have been decoded. -/
theorem Decoded.of_other {c : Connection} (hbody : c.reading ≠ .body)
    (hdone : ∀ ec, c.reading ≠ .bodyDone ec) : Decoded c := by
  rintro (h | ⟨ec, h⟩)
  · exact absurd h hbody
  · exact absurd h (hdone ec)

/-- **THE INVARIANT** of connection `n`, by the tasks the pool holds for it. -/
structure ConnInv (b : Bindings ep World) (pool : ThreadPool (RequestTask ep World))
    (executed : List Nat) (n : Nat) (c : Connection) : Prop where
  decoded : Decoded c
  before : early c.reading = true → held (ofConn n) pool = 0 ∧ executed.count n = 0
  once : held (waiting n) pool + executed.count n ≤ 1
  written : held (answering n) pool + c.sent.length ≤ executed.count n
  tasks : AllHeld (fun task => task.conn = n → Requested b c task) pool
  frames : ∀ frame ∈ c.sent, Answers b c frame

/-- A task that has not run yet is a task of its connection. -/
theorem ofConn_of_waiting {n : Nat} {task : RequestTask ep World} (h : waiting n task = true) :
    ofConn n task = true :=
  (Bool.and_eq_true_iff.mp h).1

theorem ofConn_of_answering {n : Nat} {task : RequestTask ep World}
    (h : answering n task = true) : ofConn n task = true :=
  (Bool.and_eq_true_iff.mp h).1

/-! ## Steps of one connection -/

/-- The step leaves the request and the frames of the connection as they are. -/
structure Keeps (c c' : Connection) : Prop where
  head : c'.head = c.head
  reqHead : c'.reqHead = c.reqHead
  protocolAndBody : c'.protocolAndBody = c.protocolAndBody
  sent : c'.sent = c.sent
  reading : c'.reading = c.reading ∨ c'.reading = .idle

/-- The timer is no part of what a request is read from. -/
theorem Keeps.setTimer (c : Connection) (t : Atimer Nat TimerFunc) : Keeps c (c.setTimer t) :=
  ⟨rfl, rfl, rfl, rfl, Or.inl rfl⟩

theorem Keeps.stopTimer (c : Connection) : Keeps c c.stopTimer := by
  rw [c.stopTimer_eq]
  exact .setTimer c _

theorem Keeps.disconnect (c : Connection) : Keeps c c.disconnect := by
  rw [c.disconnect_eq]
  exact ⟨rfl, rfl, rfl, rfl, Or.inl rfl⟩

theorem Keeps.startTimer (c : Connection) : Keeps c c.startTimer := by
  rw [Connection.startTimer]
  split
  · exact ⟨rfl, rfl, rfl, rfl, Or.inl rfl⟩
  · exact .setTimer c _

/-- Two changes that keep the request keep it together. -/
theorem Keeps.trans {c d e : Connection} (h : Keeps c d) (h' : Keeps d e) : Keeps c e := by
  refine ⟨h'.head.trans h.head, h'.reqHead.trans h.reqHead,
    h'.protocolAndBody.trans h.protocolAndBody, h'.sent.trans h.sent, ?_⟩
  rcases h'.reading with hsame | hidle
  · rw [hsame]
    exact h.reading
  · exact Or.inr hidle

/-- A frame that answers a request answers it after such a change too. -/
theorem Keeps.answers {b : Bindings ep World} {c c' : Connection} (h : Keeps c c')
    {frame : List UInt8} (ha : Answers b c frame) : Answers b c' frame := by
  obtain ⟨protocol, body, entry, call, result, remains, hd, hp, hb, hf, ho, heq⟩ := ha
  refine ⟨protocol, body, entry, call, result, remains, ?_, ?_, ?_, ?_, ho, heq⟩
  · rw [h.reqHead, h.head]
    exact hd
  · rw [h.reqHead, h.protocolAndBody]
    exact hp
  · rw [h.reqHead, h.protocolAndBody]
    exact hb
  · rw [h.reqHead]
    exact hf

theorem Keeps.requested {b : Bindings ep World} {c c' : Connection} (h : Keeps c c')
    {task : RequestTask ep World} (hr : Requested b c task) : Requested b c' task := by
  rw [Requested, h.reqHead, h.head, h.protocolAndBody]
  exact hr

section ConnSteps

variable {b : Bindings ep World} {pool pool' : ThreadPool (RequestTask ep World)}
  {executed executed' : List Nat} {n : Nat} {c c' : Connection}

/-- No task of the connection is held, so all of them are anything. -/
theorem allHeld_of_none {P : RequestTask ep World → Prop} (hnone : held (ofConn n) pool = 0) :
    AllHeld (fun task => task.conn = n → P task) pool := by
  refine .of_none hnone ?_
  intro task hno hconn
  exact absurd (beq_iff_eq.mpr hconn) (Bool.eq_false_iff.mp hno)

/-- Nothing has been done for the connection. -/
theorem ConnInv.of_none (hnone : held (ofConn n) pool = 0) (hcount : executed.count n = 0)
    (hd : Decoded c) (hnil : c.sent = []) : ConnInv b pool executed n c := by
  refine ⟨hd, fun _ => ⟨hnone, hcount⟩, ?_, ?_, allHeld_of_none hnone, ?_⟩
  · rw [held_none hnone fun _ => ofConn_of_waiting, hcount]
    exact Nat.zero_le 1
  · rw [held_none hnone fun _ => ofConn_of_answering, hcount, hnil]
    exact Nat.le_refl 0
  · rw [hnil]
    exact nofun

/-- Before the route call nothing has been sent. -/
theorem ConnInv.sent_nil (h : ConnInv b pool executed n c) (he : early c.reading = true) :
    c.sent = [] := by
  have hle := h.written
  rw [(h.before he).2] at hle
  exact List.length_eq_zero_iff.mp (Nat.eq_zero_of_le_zero (Nat.le_of_add_left_le hle))

/-- Before the route call nothing but the reading matters. -/
theorem ConnInv.early_step (h : ConnInv b pool executed n c) (he : early c.reading = true)
    (hd : Decoded c') (hsent : c'.sent = c.sent) : ConnInv b pool executed n c' :=
  .of_none (h.before he).1 (h.before he).2 hd (hsent.trans (h.sent_nil he))

/-- **THE FRAME LEMMA OF A CONNECTION**: what leaves its request alone, and only ends the read
    chain, keeps the invariant. -/
theorem ConnInv.keeps_step (h : ConnInv b pool executed n c) (hk : Keeps c c') :
    ConnInv b pool executed n c' := by
  refine ⟨?_, ?_, h.once, ?_, ?_, ?_⟩
  · intro hreading
    rcases hk.reading with hsame | hidle
    · rw [hk.reqHead, hk.head]
      rw [hsame] at hreading
      exact h.decoded hreading
    · rw [hidle] at hreading
      rcases hreading with hr | ⟨ec, hr⟩ <;> exact nomatch hr
  · intro he
    rcases hk.reading with hsame | hidle
    · rw [hsame] at he
      exact h.before he
    · rw [hidle] at he
      exact nomatch he
  · rw [hk.sent]
    exact h.written
  · exact h.tasks.imp fun task hr hconn => hk.requested (hr hconn)
  · rw [hk.sent]
    exact fun frame hmem => hk.answers (h.frames frame hmem)

/-- Steps of the pool that bring in no task of the connection. -/
theorem ConnInv.pool_step (h : ConnInv b pool executed n c)
    (hheld : ∀ q : RequestTask ep World → Bool,
      (∀ task, q task = true → ofConn n task = true) → held q pool' ≤ held q pool)
    (hcount : executed'.count n = executed.count n) : ConnInv b pool' executed' n c := by
  have hof := hheld (ofConn n) fun _ hq => hq
  have hwaiting := hheld (waiting n) fun _ => ofConn_of_waiting
  have hanswering := hheld (answering n) fun _ => ofConn_of_answering
  refine ⟨h.decoded, ?_, ?_, ?_, ?_, h.frames⟩
  · intro he
    obtain ⟨hnone, hzero⟩ := h.before he
    rw [hcount]
    exact ⟨Nat.eq_zero_of_le_zero (hnone ▸ hof), hzero⟩
  · have hle := h.once
    rw [hcount]
    omega
  · have hle := h.written
    rw [hcount]
    omega
  · intro q hq
    have hconn : ∀ task, q task = true → ofConn n task = true := by
      intro task hqt
      by_contra hne
      exact hq task hqt fun hc => absurd (beq_iff_eq.mpr hc) hne
    exact Nat.eq_zero_of_le_zero (h.tasks q hq ▸ hheld q hconn)

/-- A task that comes in, moves or goes does not concern other connections. -/
theorem held_other {task : RequestTask ep World} (hother : task.conn ≠ n)
    (hheld : ∀ q, held q pool' ≤ held q pool + weight (q task))
    (q : RequestTask ep World → Bool) (hq : ∀ task, q task = true → ofConn n task = true) :
    held q pool' ≤ held q pool := by
  have hno : q task = false :=
    Bool.eq_false_iff.mpr fun hqt => hother (beq_iff_eq.mp (hq task hqt))
  have hle := hheld q
  rw [hno] at hle
  exact hle

/-- The route call hands the request over to one task. -/
theorem ConnInv.routes (h : ConnInv b pool executed n c) (he : early c.reading = true)
    {task : RequestTask ep World} (hreq : Requested b c' task) (hnew : task.result = none)
    (hsent : c'.sent = c.sent) (hrouting : c'.reading = .routing)
    (hheld : ∀ q, held q pool' ≤ held q pool + weight (q task)) :
    ConnInv b pool' executed n c' := by
  obtain ⟨hnone, hcount⟩ := h.before he
  have hnil : c'.sent = [] := hsent.trans (h.sent_nil he)
  have hans : answering n task = false := by
    rw [answering, hnew, Option.isSome_none, Bool.and_false]
  refine ⟨?_, ?_, ?_, ?_, ?_, ?_⟩
  · exact .of_other (by rw [hrouting]; exact nofun) (by rw [hrouting]; exact nofun)
  · rw [hrouting]
    exact nofun
  · have hle := hheld (waiting n)
    rw [held_none hnone fun _ => ofConn_of_waiting] at hle
    rw [hcount]
    refine Nat.le_trans hle ?_
    cases waiting n task <;> decide
  · have hle := hheld (answering n)
    rw [held_none hnone fun _ => ofConn_of_answering, hans] at hle
    rw [hnil, hcount]
    exact hle
  · exact (allHeld_of_none hnone).brings (fun _ => hreq) hheld
  · rw [hnil]
    exact nofun

section TaskSteps

variable {i : Nat} {task : RequestTask ep World}

/-- The function of a task runs: once, since the task is then no longer waiting. -/
theorem ConnInv.handler_runs (h : ConnInv b pool executed n c)
    (hrun : pool.workers[i]? = some (.run task)) (hconn : task.conn = n)
    (hnew : task.result = none) {call : Call World} {task' : RequestTask ep World}
    (htask' : task' = { task with result := some (task.entry.outcome task.body call) }) :
    ConnInv b (pool.setWorker i (.run task')) (executed ++ [n]) n c := by
  have hmove : ∀ q, held q (pool.setWorker i (.run task')) + weight (q task)
      = held q pool + weight (q task') := fun q => held_setWorker q hrun (.run task')
  have hself : (task.conn == n) = true := beq_iff_eq.mpr hconn
  have hcount : (executed ++ [n]).count n = executed.count n + 1 := by
    rw [List.count_append, List.count_singleton_self]
  have hwait : waiting n task = true := by rw [waiting, hself, hnew]; rfl
  have hans : answering n task = false := by rw [answering, hself, hnew]; rfl
  have hwait' : waiting n task' = false := by rw [htask', waiting, hself]; rfl
  have hans' : answering n task' = true := by rw [htask', answering, hself]; rfl
  refine ⟨h.decoded, ?_, ?_, ?_, ?_, h.frames⟩
  · intro he
    have hpos := held_pos (q := ofConn n) hrun hself
    exact absurd (h.before he).1 (Nat.ne_of_gt hpos)
  · have hle := h.once
    have hm := hmove (waiting n)
    rw [hwait, hwait'] at hm
    simp only [weight, if_true, Bool.false_eq_true, if_false] at hm
    omega
  · have hle := h.written
    have hm := hmove (answering n)
    rw [hans, hans'] at hm
    simp only [weight, if_true, Bool.false_eq_true, if_false] at hm
    omega
  · obtain ⟨hd, hp, hb, -⟩ := h.tasks.run hrun hconn
    have hreq : Requested b c task' := by
      subst htask'
      refine ⟨hd, hp, hb, ?_⟩
      rintro result ⟨⟩
      exact ⟨call, rfl⟩
    refine h.tasks.brings (fun _ => hreq) ?_
    exact fun q => Nat.le_of_add_right_le (Nat.le_of_eq (hmove q))

/-- The task ends on its connection: its response is written at most once. -/
theorem ConnInv.ends (h : ConnInv b pool executed n c)
    (hrun : pool.workers[i]? = some (.run task)) (hconn : task.conn = n)
    {result : Except String Str} (hleft : ∀ r, result = .ok r → task.result = some (.ok r))
    (hdone : task.result.isSome = true) (remains : Remains responseHeaderLen)
    (ec : Option String) :
    ConnInv b (pool.setWorker i .notify) executed n (c.respond result remains ec) := by
  have hmove : ∀ q, held q (pool.setWorker i .notify) + weight (q task) = held q pool :=
    fun q => held_setWorker q hrun .notify
  have hpool : ConnInv b (pool.setWorker i .notify) executed n c := by
    refine h.pool_step ?_ rfl
    intro q _
    exact Nat.le_of_add_right_le (Nat.le_of_eq (hmove q))
  obtain ⟨r, rfl, hw⟩ | ⟨heq, -⟩ := c.respond_cases result remains ec
  · obtain ⟨-, -, heq⟩ := Connection.write_ok hw
    rw [heq]
    refine ⟨hpool.decoded, hpool.before, hpool.once, ?_, ?_, ?_⟩
    · have hle := h.written
      have hans : answering n task = true := by
        rw [answering, beq_iff_eq.mpr hconn, hdone]
        rfl
      have hm := hmove (answering n)
      rw [hans] at hm
      simp only [weight, if_true] at hm
      rw [List.length_append, List.length_singleton]
      omega
    · exact hpool.tasks
    · intro frame hmem
      rcases List.mem_append.mp hmem with hold | hnew
      · exact h.frames frame hold
      · obtain ⟨hd, ⟨protocol, hp, hf⟩, hb, hres⟩ := h.tasks.run hrun hconn
        obtain ⟨call, hcall⟩ := hres _ (hleft r rfl)
        exact ⟨protocol, task.body, task.entry, call, r, remains, hd, hp, hb, hf, hcall.symm,
          List.mem_singleton.mp hnew⟩
  · rw [heq]
    exact hpool.keeps_step (.disconnect c)

end TaskSteps

end ConnSteps

/-! ## Steps of the server -/

/-- Every connection has its invariant, and no task and no run belongs to a connection that is
    yet to come. -/
structure ServerInv (b : Bindings ep World) (s : Server ep World) : Prop where
  conns : ∀ n a, s.conns[n]? = some a → ConnInv b s.pool s.executed n a.conn
  fresh : ∀ n, s.conns.length ≤ n → held (ofConn n) s.pool = 0 ∧ s.executed.count n = 0

section ServerSteps

variable {b : Bindings ep World} {s s' : Server ep World}

/-- A connection moves alone: the others keep what they had. -/
theorem ServerInv.setConn (h : ServerInv b s) {n : Nat} {a : Accepted} {c : Connection}
    (hc : ConnInv b s.pool s.executed n c) : ServerInv b (s.setConn n a c) := by
  constructor
  · intro m a' hm
    rcases getElem?_set_some hm with ⟨rfl, rfl⟩ | ⟨-, hold⟩
    · exact hc
    · exact h.conns m a' hold
  · intro m hm
    refine h.fresh m ?_
    rwa [Server.setConn, List.length_set] at hm

/-- A step of one connection, if its invariant survives. -/
theorem ServerInv.onConn (h : ServerInv b s) {n : Nat} {f : Accepted → Option Connection}
    (hs : s.onConn n f = some s')
    (hf : ∀ a c, f a = some c → ConnInv b s.pool s.executed n a.conn →
      ConnInv b s.pool s.executed n c) : ServerInv b s' := by
  rw [Server.onConn] at hs
  cases ha : s.conns[n]? with
  | none =>
      rw [ha] at hs
      exact nomatch hs
  | some a =>
      rw [ha] at hs
      obtain ⟨c, hc, rfl⟩ := Option.map_eq_some_iff.mp hs
      exact h.setConn (hf a c hc (h.conns n a ha))

/-- A task and a run belong to an accepted connection. -/
theorem ServerInv.conn_of_run (h : ServerInv b s) {i : Nat} {task : RequestTask ep World}
    (hrun : s.pool.workers[i]? = some (.run task)) : task.conn < s.conns.length := by
  refine Nat.lt_of_not_le fun hle => ?_
  have hpos := held_pos (q := ofConn task.conn) hrun (beq_iff_eq.mpr rfl)
  exact Nat.ne_of_gt hpos (h.fresh task.conn hle).1

/-- The pool changes by a step that brings in or moves at most one task, of connection `n`, and
    the connections from `s` to `s'` differ in `n` at most. -/
theorem ServerInv.task_step (h : ServerInv b s) {t : RequestTask ep World}
    (hlen : s'.conns.length = s.conns.length) (hin : t.conn < s.conns.length)
    (hothers : ∀ m a, m ≠ t.conn → s'.conns[m]? = some a → s.conns[m]? = some a)
    (hheld : ∀ q, held q s'.pool ≤ held q s.pool + weight (q t))
    (hcount : ∀ m, m ≠ t.conn → s'.executed.count m = s.executed.count m)
    (hself : ∀ a, s'.conns[t.conn]? = some a →
      ConnInv b s'.pool s'.executed t.conn a.conn) : ServerInv b s' := by
  constructor
  · intro m a hm
    by_cases hne : m = t.conn
    · subst hne
      exact hself a hm
    · exact (h.conns m a (hothers m a hne hm)).pool_step (held_other (Ne.symm hne) hheld)
        (hcount m hne)
  · intro m hm
    rw [hlen] at hm
    have hne : m ≠ t.conn := fun heq => absurd hin (Nat.not_lt.mpr (heq ▸ hm))
    obtain ⟨hnone, hzero⟩ := h.fresh m hm
    refine ⟨?_, (hcount m hne).trans hzero⟩
    have hle := held_other (Ne.symm hne) hheld (ofConn m) fun _ hq => hq
    exact Nat.eq_zero_of_le_zero (hnone ▸ hle)

/-- Steps of the pool alone only let go of tasks. -/
theorem ServerInv.poolStep (h : ServerInv b s) {a : EasyRpcThreadPool.Act (RequestTask ep World)}
    (hs : s.poolStep a = some s') : ServerInv b s' := by
  rw [Server.poolStep] at hs
  obtain ⟨hfree, hs⟩ := Option.ite_none_right_eq_some.mp hs
  obtain ⟨p, hp, rfl⟩ := Option.map_eq_some_iff.mp hs
  have hbrought : ∀ q : RequestTask ep World → Bool, brought q a = 0 := by
    intro q
    cases a with
    | addTask j task => exact nomatch hfree
    | worker | wakeWorker | producer | wakeProducer | stop | terminate => rfl
  have hheld : ∀ q, held q p ≤ held q s.pool := by
    intro q
    have hle := held_step q (EasyRpcThreadPool.step_cases hp)
    rwa [hbrought q] at hle
  constructor
  · intro n a' ha
    exact (h.conns n a' ha).pool_step (fun q _ => hheld q) rfl
  · intro n hn
    obtain ⟨hnone, hzero⟩ := h.fresh n hn
    exact ⟨Nat.eq_zero_of_le_zero (hnone ▸ hheld (ofConn n)), hzero⟩

/-- **ROUTING KEEPS THE INVARIANT**: the task that `route` makes carries its connection's own
    protocol and body, and no other task of this connection is there. -/
theorem ServerInv.bodyHandler (h : ServerInv b s) {n : Nat}
    (hs : s.bodyHandler b n = some s') : ServerInv b s' := by
  rw [Server.bodyHandler] at hs
  cases ha : s.conns[n]? with
  | none =>
      rw [ha] at hs
      exact nomatch hs
  | some a =>
      have hC := h.conns n a ha
      simp only [ha] at hs
      cases hr : a.conn.bodyHandler with
      | none =>
          rw [hr] at hs
          exact nomatch hs
      | some r =>
          rw [hr] at hs
          obtain ⟨ec, hec, rfl | ⟨protocol, body, rfl, hopen, hp, hb, rfl⟩⟩ :=
            Connection.bodyHandler_cases hr
          · -- the handler has returned without a route call
            cases hs
            have he : early a.conn.reading = true := by rw [hec]; rfl
            exact h.setConn (hC.early_step he (.of_other nofun nofun) (by simp))
          · have he : early a.conn.reading = true := by rw [hec]; rfl
            cases hf : b.find a.conn.reqHead.mode protocol with
            | none =>
                simp only [hf] at hs
                cases hs
                exact h.setConn (hC.early_step he (.of_other nofun nofun)
                  (by simp [Connection.routeReturned]))
            | some entry =>
                simp only [hf] at hs
                obtain ⟨p, hstep, rfl⟩ := Option.map_eq_some_iff.mp hs
                have hheld : ∀ q, held q p ≤ held q s.pool + weight (q ⟨entry, body, n, none⟩) :=
                  fun q => held_step q (EasyRpcThreadPool.step_cases hstep)
                refine h.task_step (t := ⟨entry, body, n, none⟩) List.length_set
                  (List.getElem?_eq_some_iff.mp ha).1 ?_ hheld (fun _ _ => rfl) ?_
                · intro m a' hne hm
                  rcases getElem?_set_some hm with ⟨rfl, -⟩ | ⟨-, hold⟩
                  · exact absurd rfl hne
                  · exact hold
                · intro a' hm
                  rcases getElem?_set_some hm with ⟨-, rfl⟩ | ⟨hne, -⟩
                  · have hreq : Requested b a.conn ⟨entry, body, n, none⟩ :=
                      ⟨hC.decoded (Or.inr ⟨_, hec⟩), ⟨protocol, hp, hf⟩, hb,
                        fun _ hres => nomatch hres⟩
                    have hreq' := (Keeps.stopTimer a.conn).requested hreq
                    exact hC.routes he hreq' rfl (by simp) rfl hheld
                  · exact absurd rfl hne

/-- The function of a task runs. -/
theorem ServerInv.runHandler (h : ServerInv b s) {i : Nat} {call : Call World}
    (hs : s.runHandler i call = some s') : ServerInv b s' := by
  unfold Server.runHandler at hs
  split at hs
  · rename_i task hrun
    split at hs
    · rename_i hnew
      cases hs
      have hin := h.conn_of_run hrun
      refine h.task_step
        (t := { task with result := some (task.entry.outcome task.body call) }) rfl
        hin (fun _ _ _ hm => hm) ?_ ?_ ?_
      · intro q
        exact Nat.le_trans (Nat.le_add_right _ _) (Nat.le_of_eq (held_setWorker q hrun (.run _)))
      · intro m hne
        rw [List.count_append, List.count_singleton, beq_eq_false_iff_ne.mpr (Ne.symm hne)]
        rfl
      · intro a ha
        exact (h.conns _ a ha).handler_runs hrun rfl hnew rfl
    · cases hs
  · cases hs

/-- The end of a task keeps the invariant: at most one frame goes out, made of the result the task
    carries. -/
theorem ServerInv.endTask (h : ServerInv b s) {i : Nat} {task : RequestTask ep World}
    {result : Except String Str} {remains : Remains responseHeaderLen} {ec : Option String}
    (hrun : s.pool.workers[i]? = some (.run task))
    (hleft : ∀ r, result = .ok r → task.result = some (.ok r))
    (hdone : task.result.isSome = true) (hs : s.endTask i task result remains ec = some s') :
    ServerInv b s' := by
  rw [Server.endTask] at hs
  cases ha : s.conns[task.conn]? with
  | none =>
      rw [ha] at hs
      exact nomatch hs
  | some a =>
      simp only [ha] at hs
      obtain ⟨p, hstep, rfl⟩ := Option.map_eq_some_iff.mp hs
      have hp : p = s.pool.setWorker i .notify := by
        replace hstep : s.pool.workerStep i none = some p := hstep
        rw [ThreadPool.workerStep, hrun] at hstep
        exact (Option.some.inj hstep).symm
      subst hp
      refine h.task_step (t := task) List.length_set (h.conn_of_run hrun) ?_ ?_
        (fun _ _ => rfl) ?_
      · intro m a' hne hm
        rcases getElem?_set_some hm with ⟨rfl, -⟩ | ⟨-, hold⟩
        · exact absurd rfl hne
        · exact hold
      · intro q
        have hmove := held_setWorker q hrun .notify
        exact Nat.le_trans (Nat.le_of_add_right_le (Nat.le_of_eq hmove)) (Nat.le_add_right _ _)
      · intro a' hm
        rcases getElem?_set_some hm with ⟨-, rfl⟩ | ⟨hne, -⟩
        · exact (h.conns _ a ha).ends hrun rfl hleft hdone remains ec
        · exact absurd rfl hne

/-- The response of a worker, whichever way its task came out. -/
theorem ServerInv.respond (h : ServerInv b s) {i : Nat} {remains : Remains responseHeaderLen}
    {ec : Option String} (hs : s.respond i remains ec = some s') : ServerInv b s' := by
  unfold Server.respond at hs
  split at hs
  · rename_i task hrun
    split at hs
    · rename_i result hres
      refine h.endTask hrun ?_ (by rw [hres]; rfl) hs
      rintro r ⟨⟩
      exact hres
    · rename_i what hres
      refine h.endTask hrun ?_ (by rw [hres]; rfl) hs
      intro r hr
      exact nomatch hr
    · cases hs
  · cases hs

/-- A new connection starts with nothing done for it. -/
theorem ServerInv.accept (h : ServerInv b s) (io timeoutMilli : Nat) :
    ServerInv b { s with
      conns := s.conns ++ [⟨(Connection.create timeoutMilli).start, io⟩] } := by
  constructor
  · intro n a ha
    rcases Nat.lt_or_ge n s.conns.length with hlt | hge
    · rw [List.getElem?_append_left hlt] at ha
      exact h.conns n a ha
    · have hmem := List.mem_of_getElem? (List.getElem?_append_right hge ▸ ha)
      rw [List.mem_singleton] at hmem
      subst hmem
      obtain ⟨hnone, hzero⟩ := h.fresh n hge
      have hnil : (Connection.create timeoutMilli).start.sent = [] :=
        (Keeps.startTimer _).sent
      exact .of_none hnone hzero (.of_other nofun nofun) hnil
  · intro n hn
    refine h.fresh n ?_
    rw [List.length_append] at hn
    exact Nat.le_of_add_right_le hn

/-- The step of the body handler is the body handler, run on a free I/O thread. -/
theorem bodyHandler_of_step {n : Nat} (hs : s.step b (.bodyHandler n) = some s') :
    s.bodyHandler b n = some s' := by
  replace hs : (match s.conns[n]? with
    | none => none
    | some a => if s.ioFree a.io then s.bodyHandler b n else none) = some s' := hs
  split at hs
  · cases hs
  · exact (Option.ite_none_right_eq_some.mp hs).2

/-- **STEP**: every step keeps the invariant. -/
theorem ServerInv.step (h : ServerInv b s) {a : Act ep World} (hs : s.step b a = some s') :
    ServerInv b s' := by
  cases a with
  | accept io timeoutMilli =>
      obtain ⟨-, hs⟩ := Option.ite_none_right_eq_some.mp hs
      cases hs
      exact h.accept io timeoutMilli
  | headRead n result =>
      refine h.onConn hs ?_
      intro a c hc hC
      obtain ⟨hr, ⟨-, rfl⟩ | ⟨bytes, -, -, rfl⟩⟩ := Connection.headRead_cases hc
      · exact hC.early_step (by rw [hr]; rfl) (.of_other nofun nofun) rfl
      · exact hC.early_step (by rw [hr]; rfl) (.of_other nofun nofun) rfl
  | headHandler n =>
      refine h.onConn hs ?_
      intro a c hc hC
      obtain ⟨-, hc⟩ := Option.ite_none_right_eq_some.mp hc
      obtain ⟨ec, reqHead, hr, rfl | ⟨-, -, hv, rfl⟩⟩ := Connection.headHandler_cases hc
      · refine hC.early_step (by rw [hr]; rfl) (.of_other nofun nofun) ?_
        rw [Connection.setReading_sent, Connection.disconnect_sent, Connection.stopTimer_sent]
        rfl
      · refine hC.early_step (by rw [hr]; rfl) ?_ rfl
        intro _
        exact (congrArg Prod.fst hv).symm
  | bodyRead n result =>
      refine h.onConn hs ?_
      intro a c hc hC
      obtain ⟨hr, ⟨-, rfl⟩ | ⟨bytes, -, -, -, rfl⟩⟩ := Connection.bodyRead_cases hc
      · exact hC.early_step (by rw [hr]; rfl) (fun _ => hC.decoded (Or.inl hr)) rfl
      · exact hC.early_step (by rw [hr]; rfl) (fun _ => hC.decoded (Or.inl hr)) rfl
  | bodyHandler n => exact h.bodyHandler (bodyHandler_of_step hs)
  | routeReturns n =>
      refine h.onConn hs ?_
      intro a c hc hC
      split at hc
      · cases hc
        exact hC.keeps_step ⟨rfl, rfl, rfl, rfl, Or.inr rfl⟩
      · cases hc
  | expire n =>
      refine h.onConn hs ?_
      intro a c hc hC
      obtain ⟨-, hc⟩ := Option.ite_none_right_eq_some.mp hc
      cases hc
      exact hC.keeps_step (.setTimer _ _)
  | timerHandler n k =>
      refine h.onConn hs ?_
      intro a c hc hC
      obtain ⟨-, hc⟩ := Option.ite_none_right_eq_some.mp hc
      obtain ⟨duration, aborted, -, ⟨-, rfl⟩ | ⟨-, -, rfl⟩ | ⟨-, -, rfl⟩⟩ :=
        Connection.timerHandler_cases hc
      · exact hC.keeps_step (.setTimer _ _)
      · exact hC.keeps_step (.setTimer _ _)
      · exact hC.keeps_step ((Keeps.disconnect _).trans (.setTimer _ _))
  | destruct n =>
      refine h.onConn hs ?_
      intro a c hc hC
      obtain ⟨-, hc⟩ := Option.ite_none_right_eq_some.mp hc
      cases hc
      exact hC.keeps_step
        (((Keeps.stopTimer _).trans (.disconnect _)).trans (.setTimer _ _))
  | pool a => exact h.poolStep hs
  | runHandler i call => exact h.runHandler hs
  | respond i remains ec => exact h.respond hs

end ServerSteps

/-- The invariant holds in every reachable state of the server. -/
theorem serverInv_of_reachable {b : Bindings ep World} {s : Server ep World}
    (h : Reachable (serverSystem b) s) : ServerInv b s := by
  refine h.invariant ?_ ?_
  · rintro s ⟨n, m, rfl⟩
    exact ⟨nofun, fun k _ => ⟨held_initial _ n m, rfl⟩⟩
  · intro s a s' hI _ hs
    exact hI.step hs

/-- A server that echoes one byte. -/
def echoBindings : Bindings bytePack Unit where
  invokerMap protocol := if protocol = [101] then some (bindNonMemberFunc echoFunction) else none
  invokerRawMap _ := none

end EasyRpcServer
