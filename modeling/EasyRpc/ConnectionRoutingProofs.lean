import EasyRpc.ConnectionReleaseProofs

/-! # Routing a connection's request — at most once, or the socket is closed

    The header read, the body read and the timer complete in any order, each with or without an
    error, and a completion may already be queued when the socket is closed.  Every handler
    returns early in several places, and the cleanup is split over two guards: the one of the
    header handler is dismissed once the body read has been started, the one of the body handler
    once `route` has returned true.

    A log over the events of a connection records what its handlers learn and call.  In every
    state the place of the read tells which logs are possible (`Phase`), and each of them holds
    at most one route call, behind an accepted header and a body that arrived, on an open socket
    (`routes_once_and_cleans_up`). -/

namespace EasyRpcConnectionRouting

open Transition EasyRpcWire EasyRpcConnection EasyRpcConnectionRelease

/-- What the log of a connection records. -/
inductive Event where
  -- the header handler called `check_head`
  | headChecked (reqHead : RequestHeader) (ok : Bool)
  -- the body read completed, with the payload or an error
  | bodyRead (result : Option (List UInt8))
  -- the body handler called `route`; `isOpen` tells whether the socket was open
  | routeCalled (isOpen : Bool) (protocol body : Str) (mode : CallMode)
  | routeReturned (ok : Bool)

/-- Whether an event is a call of `router::route`. -/
def Event.isRouteCalled : Event → Bool
  | .routeCalled .. => true
  | _ => false

/-- A connection with the log of what it called outside of itself, oldest first. -/
structure LoggedConn where
  state : ConnState
  log : List Event

/-- What an event of the connection adds to the log. -/
def events (c : Connection) : Act → List Event
  | .headHandler =>
      if c.reading = .headDone false ∧ c.isOpen = true then
        [.headChecked (checkHead c.head).1 (checkHead c.head).2]
      else []
  | .bodyRead result => [.bodyRead result]
  | .bodyHandler bound =>
      match c.bodyHandler with
      | some (.route d protocol body mode) =>
          .routeCalled d.isOpen protocol body mode :: (if bound then [] else [.routeReturned false])
      | _ => []
  | .routeReturns => [.routeReturned true]
  | _ => []

/-- The events of a connection, with a log of what they do. -/
def loggedSystem (timeoutMilli : Nat) : System LoggedConn Act where
  start s := s = ⟨.initial timeoutMilli, []⟩
  step s a := (s.state.step a).map fun t => ⟨t, s.log ++ events s.state.conn a⟩

/-- At most one call of `route`, and only on an open socket and with the slices of a payload that
    was read without an error, under a header that passed `check_head`, both earlier. -/
structure RoutesOnce (log : List Event) : Prop where
  once : log.countP Event.isRouteCalled ≤ 1
  justified : ∀ before isOpen protocol body mode after,
    log = before ++ .routeCalled isOpen protocol body mode :: after →
      isOpen = true ∧ ∃ reqHead payload,
        .headChecked reqHead true ∈ before ∧ .bodyRead (some payload) ∈ before
        ∧ protocolSlice reqHead payload = some protocol
        ∧ bodySlice reqHead payload = some body ∧ reqHead.mode = mode

/-- The log of a request that was not routed. -/
def NoRoute (log : List Event) : Prop :=
  ∀ e ∈ log, e.isRouteCalled = false

theorem NoRoute.nil : NoRoute [] := nofun

/-- An event that routes nothing may be put before a log that routes nothing. -/
theorem NoRoute.cons {e : Event} {log : List Event} (he : e.isRouteCalled = false)
    (h : NoRoute log) : NoRoute (e :: log) := by
  intro e' he'
  rcases List.mem_cons.mp he' with rfl | hmem
  · exact he
  · exact h e' hmem

theorem NoRoute.countP {log : List Event} (h : NoRoute log) :
    log.countP Event.isRouteCalled = 0 :=
  List.countP_eq_zero.mpr fun e he => by rw [h e he]; exact Bool.false_ne_true

theorem RoutesOnce.of_none {log : List Event} (h : NoRoute log) : RoutesOnce log := by
  constructor
  · rw [h.countP]
    exact Nat.zero_le 1
  · rintro before isOpen protocol body mode after rfl
    have hcall := h _ (List.mem_append_right before List.mem_cons_self)
    exact nomatch hcall

/-- The log of a request that was routed: what comes after the call does not count. -/
theorem RoutesOnce.of_routed {reqHead : RequestHeader} {payload : List UInt8}
    {protocol body : Str} (hp : protocolSlice reqHead payload = some protocol)
    (hb : bodySlice reqHead payload = some body) {rest : List Event}
    (hrest : NoRoute rest) :
    RoutesOnce (.headChecked reqHead true :: .bodyRead (some payload)
      :: .routeCalled true protocol body reqHead.mode :: rest) := by
  constructor
  · simp only [List.countP_cons, Event.isRouteCalled, hrest.countP, Bool.false_eq_true,
      if_false, if_true]
    exact Nat.le_refl 1
  · intro before isOpen protocol' body' mode after heq
    -- the call stands third in the log
    rcases before with _ | ⟨e1, _ | ⟨e2, _ | ⟨e3, before⟩⟩⟩
    · exact nomatch heq
    · exact nomatch heq
    · cases heq
      refine ⟨rfl, reqHead, payload, List.mem_cons_self, ?_, hp, hb, rfl⟩
      exact List.mem_cons_of_mem _ List.mem_cons_self
    · simp only [List.cons_append, List.cons.injEq] at heq
      obtain ⟨-, -, -, htail⟩ := heq
      have hmem : Event.routeCalled isOpen protocol' body' mode ∈ rest := by
        rw [htail]
        exact List.mem_append_right before List.mem_cons_self
      exact nomatch hrest _ hmem

/-- The place of the read fixes the log. -/
inductive Phase (c : Connection) : List Event → Prop where
  | head : c.reading = .head ∨ (∃ ec, c.reading = .headDone ec) → Phase c []
  | body : c.reading = .body → Phase c [.headChecked c.reqHead true]
  | bodyFailed : c.reading = .bodyDone true →
      Phase c [.headChecked c.reqHead true, .bodyRead none]
  | bodyArrived : c.reading = .bodyDone false →
      Phase c [.headChecked c.reqHead true, .bodyRead (some c.protocolAndBody)]
  | routing (reqHead : RequestHeader) (payload : List UInt8) (protocol body : Str) :
      c.reading = .routing →
      protocolSlice reqHead payload = some protocol → bodySlice reqHead payload = some body →
      Phase c [.headChecked reqHead true, .bodyRead (some payload),
        .routeCalled true protocol body reqHead.mode]
  | ended (log : List Event) : c.reading = .idle → RoutesOnce log →
      (c.isOpen = false ∨ .routeReturned true ∈ log) → Phase c log

/-- No log of any phase routes twice or out of turn. -/
theorem Phase.routesOnce {c : Connection} {log : List Event} (h : Phase c log) :
    RoutesOnce log := by
  cases h with
  | head => exact .of_none .nil
  | body => exact .of_none (.cons rfl .nil)
  | bodyFailed | bodyArrived => exact .of_none (.cons rfl (.cons rfl .nil))
  | routing reqHead payload protocol body hr hp hb => exact .of_routed hp hb .nil
  | ended log hr honce hclosed => exact honce

/-- An idle read is behind the last phase. -/
theorem Phase.closed {c : Connection} {log : List Event} (h : Phase c log)
    (hidle : c.reading = .idle) (hno : .routeReturned true ∉ log) : c.isOpen = false := by
  cases h with
  | head hr =>
      rw [hidle] at hr
      rcases hr with hr | ⟨ec, hr⟩ <;> exact nomatch hr
  | body hr | bodyFailed hr | bodyArrived hr | routing _ _ _ _ hr =>
      rw [hidle] at hr
      exact nomatch hr
  | ended log hr honce hclosed => exact hclosed.resolve_right hno

/-- A phase looks at the read, its data and whether the socket is closed. -/
theorem Phase.congr {c d : Connection} {log : List Event} (h : Phase c log)
    (hreading : d.reading = c.reading) (hhead : d.reqHead = c.reqHead)
    (hbuffer : d.protocolAndBody = c.protocolAndBody)
    (hopen : c.isOpen = false → d.isOpen = false) : Phase d log := by
  cases h with
  | head hr =>
      rw [← hreading] at hr
      exact .head hr
  | body hr =>
      rw [← hhead]
      exact .body (hreading.trans hr)
  | bodyFailed hr =>
      rw [← hhead]
      exact .bodyFailed (hreading.trans hr)
  | bodyArrived hr =>
      rw [← hhead, ← hbuffer]
      exact .bodyArrived (hreading.trans hr)
  | routing reqHead payload protocol body hr hp hb =>
      exact .routing reqHead payload protocol body (hreading.trans hr) hp hb
  | ended log hr honce hclosed =>
      exact .ended log (hreading.trans hr) honce (hclosed.imp_left hopen)

/-! ## The handlers, phase by phase -/

section Handlers

variable {c d : Connection} {log : List Event}

theorem Phase.log_of_head (h : Phase c log)
    (hr : c.reading = .head ∨ ∃ ec, c.reading = .headDone ec) : log = [] := by
  cases h with
  | head => rfl
  | body hr' | bodyFailed hr' | bodyArrived hr' | routing _ _ _ _ hr' | ended _ hr' =>
      rw [hr'] at hr
      rcases hr with hr | ⟨ec, hr⟩ <;> exact nomatch hr

/-- The header read keeps the phase: nothing is logged yet. -/
theorem Phase.headRead {result : Option (CharArray requestHeaderLen)} (h : Phase c log)
    (hd : c.headRead result = some d) : Phase d log := by
  obtain ⟨hr, hcases⟩ := Connection.headRead_cases hd
  rw [h.log_of_head (Or.inl hr)]
  rcases hcases with ⟨-, rfl⟩ | ⟨bytes, -, -, rfl⟩
  · exact .head (Or.inr ⟨true, rfl⟩)
  · exact .head (Or.inr ⟨false, rfl⟩)

/-- The header handler goes on to the body with an empty log, or ends with a log that routes
    nothing. -/
theorem Phase.headHandler (h : Phase c log) (hd : c.headHandler = some d) :
    Phase d (log ++ events c .headHandler) := by
  obtain ⟨ec, reqHead, hr, hcases⟩ := Connection.headHandler_cases hd
  rw [h.log_of_head (Or.inr ⟨ec, hr⟩), List.nil_append]
  rcases hcases with rfl | ⟨rfl, hopen, hv, rfl⟩
  · refine .ended _ rfl (.of_none ?_) (Or.inl (by simp))
    rw [events]
    by_cases hchecked : c.reading = .headDone false ∧ c.isOpen = true
    · rw [if_pos hchecked]
      exact .cons rfl .nil
    · rw [if_neg hchecked]
      exact .nil
  · rw [events, if_pos ⟨hr, hopen⟩, hv]
    exact .body rfl

/-- The body read keeps the log, and remembers the bytes that it brought. -/
theorem Phase.bodyRead {result : Option (List UInt8)} (h : Phase c log)
    (hd : c.bodyRead result = some d) : Phase d (log ++ events c (.bodyRead result)) := by
  obtain ⟨hr, hcases⟩ := Connection.bodyRead_cases hd
  cases h with
  | body =>
      rcases hcases with ⟨rfl, rfl⟩ | ⟨bytes, rfl, -, -, rfl⟩
      · exact .bodyFailed rfl
      · exact .bodyArrived rfl
  | head hr' =>
      rw [hr] at hr'
      rcases hr' with hr' | ⟨ec, hr'⟩ <;> exact nomatch hr'
  | bodyFailed hr' | bodyArrived hr' | routing _ _ _ _ hr' | ended _ hr' =>
      rw [hr] at hr'
      exact nomatch hr'

/-- The body handler routes what the accepted header cuts out of the payload, or it closes. -/
theorem Phase.bodyHandler {result : Connection.BodyResult} (h : Phase c log) (bound : Bool)
    (hresult : c.bodyHandler = some result) :
    Phase (match result with
      | .returned d => d
      | .route d _ _ _ => if bound then d else d.routeReturned false)
      (log ++ events c (.bodyHandler bound)) := by
  obtain ⟨ec, hr, hcases⟩ := Connection.bodyHandler_cases hresult
  have hlog : NoRoute log
      ∧ (ec = false → log = [.headChecked c.reqHead true, .bodyRead (some c.protocolAndBody)]) := by
    cases h with
    | bodyFailed hr' =>
        refine ⟨.cons rfl (.cons rfl .nil), ?_⟩
        rintro rfl
        rw [hr] at hr'
        exact nomatch hr'
    | bodyArrived => exact ⟨.cons rfl (.cons rfl .nil), fun _ => rfl⟩
    | head hr' =>
        rw [hr] at hr'
        rcases hr' with hr' | ⟨ec', hr'⟩ <;> exact nomatch hr'
    | body hr' | routing _ _ _ _ hr' | ended _ hr' =>
        rw [hr] at hr'
        exact nomatch hr'
  rcases hcases with rfl | ⟨protocol, body, rfl, hopen, hp, hb, rfl⟩
  · simp only [events, hresult, List.append_nil]
    exact .ended _ rfl (.of_none hlog.1) (Or.inl (by simp))
  · simp only [events, hresult, Connection.setReading_isOpen, Connection.stopTimer_isOpen, hopen,
      hlog.2 rfl]
    cases bound with
    | true => exact .routing c.reqHead c.protocolAndBody protocol body rfl hp hb
    | false =>
        refine .ended _ ?_ (.of_routed hp hb (.cons rfl .nil)) (Or.inl ?_)
        · rfl
        · simp [Connection.routeReturned]

/-- After `route` has returned, `stop_timer` ends the chain with one call logged. -/
theorem Phase.routeReturns (h : Phase c log) (hr : c.reading = .routing) :
    Phase (c.routeReturned true) (log ++ events c .routeReturns) := by
  cases h with
  | routing reqHead payload protocol body _ hp hb =>
      refine .ended _ rfl (.of_routed hp hb (.cons rfl .nil)) (Or.inr ?_)
      exact List.mem_append_right _ List.mem_cons_self
  | head hr' =>
      rw [hr] at hr'
      rcases hr' with hr' | ⟨ec, hr'⟩ <;> exact nomatch hr'
  | body hr' | bodyFailed hr' | bodyArrived hr' | ended _ hr' =>
      rw [hr] at hr'
      exact nomatch hr'

/-- Answering from a worker thread leaves the reads alone. -/
theorem Phase.respond (h : Phase c log) (result : Except String Str)
    (remains : Remains responseHeaderLen) (ec : Option String) :
    Phase (c.respond result remains ec) log := by
  rcases c.respond_cases result remains ec with ⟨body, -, hw⟩ | ⟨hd, -⟩
  · obtain ⟨-, -, heq⟩ := Connection.write_ok hw
    rw [heq]
    exact h.congr rfl rfl rfl id
  · rw [hd, Connection.disconnect_eq]
    exact h.congr rfl rfl rfl fun _ => rfl

/-- A timer handler closes the socket at most, and logs no call of `route`. -/
theorem Phase.timerHandler {n : Nat} (h : Phase c log) (hd : c.timerHandler n = some d) :
    Phase d log := by
  obtain ⟨duration, aborted, -, ⟨-, rfl⟩ | ⟨-, -, rfl⟩ | ⟨-, -, rfl⟩⟩ :=
    Connection.timerHandler_cases hd
  · exact h.congr rfl rfl rfl id
  · exact h.congr rfl rfl rfl id
  · rw [Connection.disconnect_eq]
    exact h.congr rfl rfl rfl fun _ => rfl

end Handlers

/-! ## Whole runs -/

/-- **STEP LEMMA**: every event takes a phase to a phase. -/
theorem Phase.apply {s t : ConnState} {a : Act} {log : List Event} (h : Phase s.conn log)
    (ht : s.apply a = some t) : Phase t.conn (log ++ events s.conn a) := by
  cases a with
  | headRead result =>
      obtain ⟨c, hc, rfl⟩ := Option.map_eq_some_iff.mp ht
      show Phase _ (log ++ [])
      rw [List.append_nil]
      exact h.headRead hc
  | headHandler =>
      obtain ⟨c, hc, rfl⟩ := Option.map_eq_some_iff.mp ht
      exact h.headHandler hc
  | bodyRead result =>
      obtain ⟨c, hc, rfl⟩ := Option.map_eq_some_iff.mp ht
      exact h.bodyRead hc
  | bodyHandler bound =>
      obtain ⟨result, hresult, rfl⟩ := Option.map_eq_some_iff.mp ht
      have hnext := h.bodyHandler bound hresult
      cases result with
      | returned c => exact hnext
      | route c protocol body mode => exact hnext
  | routeReturns =>
      obtain ⟨hr, hs⟩ := Option.ite_none_right_eq_some.mp ht
      cases hs
      exact h.routeReturns hr
  | runTask result remains ec =>
      obtain ⟨-, hs⟩ := Option.ite_none_right_eq_some.mp ht
      cases hs
      show Phase _ (log ++ [])
      rw [List.append_nil]
      exact h.respond result remains ec
  | enqueue | popTask | dropTask | clearTask =>
      -- the connection itself is not touched
      obtain ⟨-, hs⟩ := Option.ite_none_right_eq_some.mp ht
      cases hs
      show Phase _ (log ++ [])
      rw [List.append_nil]
      exact h
  | expire =>
      obtain ⟨-, hs⟩ := Option.ite_none_right_eq_some.mp ht
      cases hs
      show Phase _ (log ++ [])
      rw [List.append_nil]
      exact h.congr rfl rfl rfl id
  | timerHandler n =>
      obtain ⟨c, hc, rfl⟩ := Option.map_eq_some_iff.mp ht
      show Phase _ (log ++ [])
      rw [List.append_nil]
      exact h.timerHandler hc

/-- The destructor closes the socket and leaves the reads alone. -/
theorem Phase.settle {s : ConnState} {log : List Event} (h : Phase s.conn log) :
    Phase s.settle.conn log := by
  obtain ⟨heq, -⟩ | ⟨-, heq⟩ := settle_cases s
  · rw [heq]
    exact h
  · rw [heq]
    refine h.congr ?_ ?_ ?_ fun _ => destruct_isOpen _
    · simp [Connection.destruct]
    · simp [Connection.destruct, Connection.disconnect_eq, Connection.setTimer]
    · simp [Connection.destruct, Connection.disconnect_eq, Connection.setTimer]

/-- In every reachable state the log is one its stage allows. -/
theorem phase_of_reachable {timeoutMilli : Nat} {s : LoggedConn}
    (h : Reachable (loggedSystem timeoutMilli) s) : Phase s.state.conn s.log := by
  refine h.invariant (I := fun s => Phase s.state.conn s.log) ?_ ?_
  · rintro s rfl
    exact .head (Or.inl rfl)
  · intro s a s' hI _ hs
    obtain ⟨u, hu, rfl⟩ := Option.map_eq_some_iff.mp hs
    obtain ⟨t, ht, rfl⟩ := Option.map_eq_some_iff.mp hu
    exact (hI.apply ht).settle

/-- **ROUTING**: in every run the connection calls `route` at most once, in turn and on an open
    socket, and once no read is outstanding the socket is closed or `route` has returned true.
    A read is outstanding until its handler returns, which waits for the `route` it calls. -/
theorem routes_once_and_cleans_up {timeoutMilli : Nat} {s : LoggedConn}
    (h : Reachable (loggedSystem timeoutMilli) s) :
    RoutesOnce s.log
    ∧ (s.state.conn.reading = .idle → .routeReturned true ∉ s.log
      → s.state.conn.isOpen = false) :=
  ⟨(phase_of_reachable h).routesOnce, (phase_of_reachable h).closed⟩

/-- A routed request whose task has been answered: one route call, which returned true. -/
theorem routes_once_and_cleans_up_answered :
    ∃ s, exec (loggedSystem 3000) ⟨.initial 3000, []⟩
        (readAndRouted ++ [.runTask (.ok []) .kept none]) = some s
      ∧ RoutesOnce s.log ∧ s.log.length = 4
      ∧ (s.state.conn.reading = .idle → .routeReturned true ∉ s.log
        → s.state.conn.isOpen = false) := by
  have hstart : Reachable (loggedSystem 3000) ⟨.initial 3000, []⟩ := Reachable.start rfl
  have hexec : exec (loggedSystem 3000) ⟨.initial 3000, []⟩
      (readAndRouted ++ [.runTask (.ok []) .kept none])
      = some ⟨answered 3000 true false ⟨[], [(3000, true)], [.disconnect], true⟩ .ran
          [[0, 0, 0, 0]],
        [.headChecked ⟨1, 0, .nonRaw⟩ true, .bodyRead (some [97]),
          .routeCalled true [97] [] .nonRaw, .routeReturned true]⟩ := rfl
  obtain ⟨honce, hclosed⟩ := routes_once_and_cleans_up (hstart.exec hexec)
  exact ⟨_, hexec, honce, rfl, hclosed⟩

end EasyRpcConnectionRouting
