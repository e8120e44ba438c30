import EasyRpc.ServerProofs

/-! # The steps of the server by their effect

    `Server.step` finds its connection, its task and its worker through lookups that may fail, and
    calls the handlers of `connection`.  `Effect` says once what each step has found and what it
    leaves; every result about runs of the server that is not an invariant of one connection alone
    is read off it (`effect_of_step`). -/

namespace EasyRpcServer

open Transition ThreadTable Throwing EasyRpcAtimer EasyRpcWire EasyRpcConnection
open EasyRpcDispatch EasyRpcThreadPool EasyRpcTaskCustody

variable {ep : Easypack} {World : Type}

/-- What the end of `operator()` makes of the outcome of its function. -/
inductive Caught : Except Exn Str → Except String Str → Prop where
  | returned (result : Str) : Caught (.ok result) (.ok result)
  | caught (what : String) : Caught (.error (.std what)) (.error what)

/-- What a step of the server finds and what it leaves. -/
inductive Effect (b : Bindings ep World) (s : Server ep World) :
    Act ep World → Server ep World → Prop where
  | accepts {io timeoutMilli : Nat} (hio : io < s.pool.producers.length) :
      Effect b s (.accept io timeoutMilli)
        { s with conns := s.conns ++ [⟨(Connection.create timeoutMilli).start, io⟩] }
  | headReads {n : Nat} {a : Accepted} {bytes : CharArray requestHeaderLen}
      (ha : s.conns[n]? = some a) (hr : a.conn.reading = .head) (hopen : a.conn.isOpen = true) :
      Effect b s (.headRead n (some bytes))
        (s.setConn n a { a.conn with head := bytes, reading := .headDone false })
  | headFails {n : Nat} {a : Accepted} (ha : s.conns[n]? = some a)
      (hr : a.conn.reading = .head) :
      Effect b s (.headRead n none) (s.setConn n a (a.conn.setReading (.headDone true)))
  | headAccepted {n : Nat} {a : Accepted} {reqHead : RequestHeader}
      (ha : s.conns[n]? = some a) (hr : a.conn.reading = .headDone false)
      (hopen : a.conn.isOpen = true) (hv : checkHead a.conn.head = (reqHead, true)) :
      Effect b s (.headHandler n) (s.setConn n a (a.conn.setReqHead reqHead).readProtocolAndBody)
  | headRefused {n : Nat} {a : Accepted} {ec : Bool} {reqHead : RequestHeader}
      (ha : s.conns[n]? = some a) (hr : a.conn.reading = .headDone ec)
      (hwhy : a.conn.isOpen = false ∨ ec = true ∨ (checkHead a.conn.head).2 = false) :
      Effect b s (.headHandler n)
        (s.setConn n a ((a.conn.setReqHead reqHead).stopTimer.disconnect.setReading .idle))
  | bodyReads {n : Nat} {a : Accepted} {bytes : List UInt8} (ha : s.conns[n]? = some a)
      (hr : a.conn.reading = .body) (hopen : a.conn.isOpen = true)
      (hlen : bytes.length = a.conn.protocolAndBody.length) :
      Effect b s (.bodyRead n (some bytes))
        (s.setConn n a { a.conn with protocolAndBody := bytes, reading := .bodyDone false })
  | bodyFails {n : Nat} {a : Accepted} (ha : s.conns[n]? = some a)
      (hr : a.conn.reading = .body) :
      Effect b s (.bodyRead n none) (s.setConn n a (a.conn.setReading (.bodyDone true)))
  | bodyRefused {n : Nat} {a : Accepted} {ec : Bool} (ha : s.conns[n]? = some a)
      (hr : a.conn.reading = .bodyDone ec)
      (hwhy : a.conn.isOpen = false ∨ ec = true
        ∨ ec = false ∧ ∃ protocol,
            protocolSlice a.conn.reqHead a.conn.protocolAndBody = some protocol
            ∧ b.find a.conn.reqHead.mode protocol = none) :
      Effect b s (.bodyHandler n) (s.setConn n a (a.conn.stopTimer.disconnect.setReading .idle))
  | routes {n : Nat} {a : Accepted} {protocol body : Str} {entry : Entry ep World}
      {p : ThreadPool (RequestTask ep World)} (ha : s.conns[n]? = some a)
      (hr : a.conn.reading = .bodyDone false) (hopen : a.conn.isOpen = true)
      (hp : protocolSlice a.conn.reqHead a.conn.protocolAndBody = some protocol)
      (hb : bodySlice a.conn.reqHead a.conn.protocolAndBody = some body)
      (hf : b.find a.conn.reqHead.mode protocol = some entry)
      (hadd : s.pool.step (.addTask a.io ⟨entry, body, n, none⟩) = some p) :
      Effect b s (.bodyHandler n)
        { s.setConn n a (a.conn.stopTimer.setReading .routing) with pool := p }
  | returns {n : Nat} {a : Accepted} (ha : s.conns[n]? = some a)
      (hr : a.conn.reading = .routing) (hidle : s.pool.producers[a.io]? = some .idle) :
      Effect b s (.routeReturns n) (s.setConn n a (a.conn.setReading .idle))
  | expires {n : Nat} {a : Accepted} (ha : s.conns[n]? = some a)
      (hwaiting : a.conn.timer.waiting ≠ []) :
      Effect b s (.expire n) (s.setConn n a (a.conn.setTimer a.conn.timer.expire))
  | handles {n k : Nat} {a : Accepted} {c : Connection} (ha : s.conns[n]? = some a)
      (hready : a.conn.timer.ready ≠ []) (hkeeps : Keeps a.conn c)
      (hr : c.reading = a.conn.reading) (hopen : c.isOpen = true → a.conn.isOpen = true)
      (hcalm : (∀ p ∈ a.conn.timer.ready, p.2 = true) →
        c.isOpen = a.conn.isOpen ∧ ∀ p ∈ c.timer.ready, p.2 = true) :
      Effect b s (.timerHandler n k) (s.setConn n a c)
  | destructs {n : Nat} {a : Accepted} (ha : s.conns[n]? = some a)
      (hr : a.conn.reading = .idle) (hfuncs : a.conn.timer.funcVec = [])
      (hnone : held (ofConn n) s.pool = 0) :
      Effect b s (.destruct n) (s.setConn n a a.conn.destruct)
  | pool {a : EasyRpcThreadPool.Act (RequestTask ep World)}
      {p : ThreadPool (RequestTask ep World)} (hint : s.internal a = true)
      (hp : s.pool.step a = some p) :
      Effect b s (.pool a) { s with pool := p }
  | runs {i : Nat} {task : RequestTask ep World} {call : Call World}
      (hrun : s.pool.workers[i]? = some (.run task)) (hnew : task.result = none) :
      Effect b s (.runHandler i call)
        { s with
          pool := s.pool.setWorker i
            (.run { task with result := some (task.entry.outcome task.body call) })
          executed := s.executed ++ [task.conn] }
  | ends {i : Nat} {task : RequestTask ep World} {a : Accepted} {outcome : Except Exn Str}
      {result : Except String Str} {remains : Remains responseHeaderLen} {ec : Option String}
      (hrun : s.pool.workers[i]? = some (.run task)) (hres : task.result = some outcome)
      (hcaught : Caught outcome result) (ha : s.conns[task.conn]? = some a) :
      Effect b s (.respond i remains ec)
        { s.setConn task.conn a (a.conn.respond result remains ec) with
          pool := s.pool.setWorker i .notify }

/-- What answering a task leaves of the connection. -/
theorem respond_request (conn : Connection) (result : Except String Str)
    (remains : Remains responseHeaderLen) (ec : Option String) :
    (conn.respond result remains ec).reading = conn.reading
    ∧ (conn.respond result remains ec).head = conn.head
    ∧ (conn.respond result remains ec).reqHead = conn.reqHead
    ∧ (conn.respond result remains ec).protocolAndBody = conn.protocolAndBody := by
  obtain ⟨body, -, hw⟩ | ⟨heq, -⟩ := conn.respond_cases result remains ec
  · rw [(Connection.write_ok hw).2.2]
    exact ⟨rfl, rfl, rfl, rfl⟩
  · rw [heq, Connection.disconnect_eq]
    exact ⟨rfl, rfl, rfl, rfl⟩

/-- What the handler of the header read goes on with. -/
theorem headHandler_accepted {c : Connection} {reqHead : RequestHeader}
    (hr : c.reading = .headDone false) (hopen : c.isOpen = true)
    (hv : checkHead c.head = (reqHead, true)) :
    c.headHandler = some (c.setReqHead reqHead).readProtocolAndBody := by
  simp only [Connection.headHandler, hr, hopen, hv]
  rfl

/-- Why it does not go on. -/
theorem headHandler_why {c c' : Connection} {ec : Bool} (hr : c.reading = .headDone ec)
    (h : c.headHandler = some c') (hidle : c'.reading = .idle) :
    c.isOpen = false ∨ ec = true ∨ (checkHead c.head).2 = false := by
  by_contra hnot
  simp only [not_or, Bool.not_eq_false, Bool.not_eq_true] at hnot
  obtain ⟨hopen, rfl, hok⟩ := hnot
  have hv : checkHead c.head = ((checkHead c.head).1, true) := by rw [← hok]
  cases (headHandler_accepted hr hopen hv).symm.trans h
  cases hidle

/-- Why the handler of the body read makes no route call. -/
theorem bodyHandler_why {c c' : Connection} {ec : Bool} (hr : c.reading = .bodyDone ec)
    (h : c.bodyHandler = some (.returned c')) : c.isOpen = false ∨ ec = true := by
  by_contra hnot
  simp only [not_or, Bool.not_eq_false, Bool.not_eq_true] at hnot
  obtain ⟨hopen, rfl⟩ := hnot
  simp only [Connection.bodyHandler, hr, Connection.stopTimer_isOpen, hopen, Bool.not_true,
    Bool.false_eq_true, if_false] at h
  split at h <;> cases h

section Steps

variable {b : Bindings ep World} {s s' : Server ep World}

/-- A step of one connection has found it. -/
theorem onConn_some {n : Nat} {f : Accepted → Option Connection} (hs : s.onConn n f = some s') :
    ∃ a c, s.conns[n]? = some a ∧ f a = some c ∧ s' = s.setConn n a c := by
  rw [Server.onConn] at hs
  cases ha : s.conns[n]? with
  | none =>
      rw [ha] at hs
      cases hs
  | some a =>
      rw [ha] at hs
      obtain ⟨c, hc, rfl⟩ := Option.map_eq_some_iff.mp hs
      exact ⟨a, c, rfl, hc, rfl⟩

/-- The body handler closes the connection, or routes its request into the pool. -/
theorem effect_of_bodyHandler {n : Nat} (hs : s.bodyHandler b n = some s') :
    Effect b s (.bodyHandler n) s' := by
  rw [Server.bodyHandler] at hs
  cases ha : s.conns[n]? with
  | none =>
      rw [ha] at hs
      cases hs
  | some a =>
      simp only [ha] at hs
      cases hr : a.conn.bodyHandler with
      | none =>
          rw [hr] at hs
          cases hs
      | some r =>
          rw [hr] at hs
          obtain ⟨ec, hec, rfl | ⟨protocol, body, rfl, hopen, hp, hb, rfl⟩⟩ :=
            Connection.bodyHandler_cases hr
          · cases hs
            exact .bodyRefused ha hec ((bodyHandler_why hec hr).imp_right Or.inl)
          · cases hf : b.find a.conn.reqHead.mode protocol with
            | none =>
                simp only [hf] at hs
                cases hs
                have hrefused : (a.conn.stopTimer.setReading .routing).routeReturned false
                    = a.conn.stopTimer.disconnect.setReading .idle := by
                  rw [Connection.routeReturned, Connection.disconnect_eq,
                    Connection.disconnect_eq]
                  rfl
                rw [hrefused]
                exact .bodyRefused ha hec (Or.inr (Or.inr ⟨rfl, protocol, hp, hf⟩))
            | some entry =>
                simp only [hf] at hs
                obtain ⟨p, hadd, rfl⟩ := Option.map_eq_some_iff.mp hs
                exact .routes ha hec hopen hp hb hf hadd

/-- The end of a task takes it off its worker and writes at most one frame. -/
theorem effect_of_endTask {i : Nat} {task : RequestTask ep World} {outcome : Except Exn Str}
    {result : Except String Str} {remains : Remains responseHeaderLen} {ec : Option String}
    (hrun : s.pool.workers[i]? = some (.run task)) (hres : task.result = some outcome)
    (hcaught : Caught outcome result) (hs : s.endTask i task result remains ec = some s') :
    Effect b s (.respond i remains ec) s' := by
  rw [Server.endTask] at hs
  cases ha : s.conns[task.conn]? with
  | none =>
      rw [ha] at hs
      cases hs
  | some a =>
      simp only [ha] at hs
      obtain ⟨p, hstep, rfl⟩ := Option.map_eq_some_iff.mp hs
      replace hstep : s.pool.workerStep i none = some p := hstep
      rw [ThreadPool.workerStep, hrun] at hstep
      cases hstep
      exact .ends hrun hres hcaught ha

/-- **STEP INVERSION**. -/
theorem effect_of_step {a : Act ep World} (hs : s.step b a = some s') : Effect b s a s' := by
  cases a with
  | accept io timeoutMilli =>
      obtain ⟨hio, hs⟩ := Option.ite_none_right_eq_some.mp hs
      cases hs
      exact .accepts hio
  | headRead n result =>
      obtain ⟨a, c, ha, hc, rfl⟩ := onConn_some hs
      obtain ⟨hr, ⟨rfl, rfl⟩ | ⟨bytes, rfl, hopen, rfl⟩⟩ := Connection.headRead_cases hc
      · exact .headFails ha hr
      · exact .headReads ha hr hopen
  | headHandler n =>
      obtain ⟨a, c, ha, hc, rfl⟩ := onConn_some hs
      obtain ⟨-, hc⟩ := Option.ite_none_right_eq_some.mp hc
      obtain ⟨ec, reqHead, hr, rfl | ⟨rfl, hopen, hv, rfl⟩⟩ := Connection.headHandler_cases hc
      · exact .headRefused ha hr (headHandler_why hr hc rfl)
      · exact .headAccepted ha hr hopen hv
  | bodyRead n result =>
      obtain ⟨a, c, ha, hc, rfl⟩ := onConn_some hs
      obtain ⟨hr, ⟨rfl, rfl⟩ | ⟨bytes, rfl, hopen, hlen, rfl⟩⟩ := Connection.bodyRead_cases hc
      · exact .bodyFails ha hr
      · exact .bodyReads ha hr hopen hlen
  | bodyHandler n => exact effect_of_bodyHandler (bodyHandler_of_step hs)
  | routeReturns n =>
      obtain ⟨a, c, ha, hc, rfl⟩ := onConn_some hs
      split at hc
      · rename_i hr hidle
        cases hc
        exact .returns ha hr hidle
      · cases hc
  | expire n =>
      obtain ⟨a, c, ha, hc, rfl⟩ := onConn_some hs
      obtain ⟨hw, hc⟩ := Option.ite_none_right_eq_some.mp hc
      cases hc
      exact .expires ha hw
  | timerHandler n k =>
      obtain ⟨a, c, ha, hc, rfl⟩ := onConn_some hs
      obtain ⟨-, hc⟩ := Option.ite_none_right_eq_some.mp hc
      obtain ⟨duration, aborted, hk, hcases⟩ := Connection.timerHandler_cases hc
      have hready : a.conn.timer.ready ≠ [] := List.ne_nil_of_mem (List.mem_of_getElem? hk)
      have htimer : Keeps a.conn c → c.reading = a.conn.reading →
          (c.isOpen = true → a.conn.isOpen = true) →
          ((∀ p ∈ a.conn.timer.ready, p.2 = true) →
            c.isOpen = a.conn.isOpen ∧ ∀ p ∈ c.timer.ready, p.2 = true) →
          Effect b s (.timerHandler n k) (s.setConn n a c) :=
        .handles ha hready
      -- a handler that no deadline has queued leaves the connection alone
      have hcalm : aborted = false → ¬ ∀ p ∈ a.conn.timer.ready, p.2 = true := by
        rintro rfl hall
        exact absurd (hall _ (List.mem_of_getElem? hk)) Bool.false_ne_true
      rcases hcases with ⟨-, rfl⟩ | ⟨haborted, -, rfl⟩ | ⟨haborted, -, rfl⟩
      · exact htimer (.setTimer _ _) rfl id fun hall =>
          ⟨rfl, fun p hp => hall p (List.mem_of_mem_eraseIdx hp)⟩
      · exact htimer (.setTimer _ _) rfl id fun hall => absurd hall (hcalm haborted)
      · refine htimer ((Keeps.disconnect _).trans (.setTimer _ _)) a.conn.disconnect_reading ?_
          fun hall => absurd hall (hcalm haborted)
        exact fun hopen => absurd (a.conn.disconnect_isOpen.symm.trans hopen) Bool.false_ne_true
  | destruct n =>
      obtain ⟨a, c, ha, hc, rfl⟩ := onConn_some hs
      obtain ⟨⟨hr, hfuncs, hnone⟩, hc⟩ := Option.ite_none_right_eq_some.mp hc
      cases hc
      exact .destructs ha hr hfuncs hnone
  | pool a =>
      replace hs : s.poolStep a = some s' := hs
      rw [Server.poolStep] at hs
      obtain ⟨hint, hs⟩ := Option.ite_none_right_eq_some.mp hs
      obtain ⟨p, hp, rfl⟩ := Option.map_eq_some_iff.mp hs
      exact .pool hint hp
  | runHandler i call =>
      replace hs : s.runHandler i call = some s' := hs
      unfold Server.runHandler at hs
      split at hs
      · rename_i task hrun
        split at hs
        · rename_i hnew
          cases hs
          exact .runs hrun hnew
        · cases hs
      · cases hs
  | respond i remains ec =>
      replace hs : s.respond i remains ec = some s' := hs
      unfold Server.respond at hs
      split at hs
      · rename_i task hrun
        split at hs
        · rename_i result hres
          exact effect_of_endTask hrun hres (.returned result) hs
        · rename_i what hres
          exact effect_of_endTask hrun hres (.caught what) hs
        · cases hs
      · cases hs

end Steps

end EasyRpcServer
