import EasyRpc.ConnectionProofs
import EasyRpc.TransitionProofs

/-! # Releasing a connection — shared ownership and the timer's callbacks

    A server connection closes its socket on every failure; on the successful path nobody does,
    and the socket is to be closed by the destructor when the last `shared_ptr` goes.  The owners
    are the handler of the read in progress, the task that carries the request, and the callbacks
    that `start_timer` has bound: `[this, self]{ disconnect(); }` is stored inside the timer of
    the very connection it owns and is never removed.

    So without a timeout every connection is released, and with one a request that comes to a
    quiet end — its response written, or its task discarded — with no fired expiry left strands
    the connection: no read, no wait and no task, the socket open, the owner count positive.
    `released_of_noisy_ends` says that this is the only way, and that every quiet end is one. -/

namespace EasyRpcConnectionRelease

open Transition EasyRpcAtimer EasyRpcWire EasyRpcConnection

/-- Where the task of the connection's request is. -/
inductive TaskPlace where
  -- not enqueued
  | none
  | queued
  | running
  -- it has returned, and the worker's `task` variable still holds it
  | ran
  | gone
  deriving DecidableEq

/-- A connection with the task made of its request, and whether it is destroyed. -/
structure ConnState where
  conn : Connection
  task : TaskPlace
  destroyed : Bool

/-- The copies of `self` held for a read: one in its handler; during the route call those of the
    guard, of the parameters of `route` and `add_task` and of the local closure as well. -/
def readOwners : Reading → Nat
  | .idle => 0
  | .routing => 5
  | _ => 1

/-- The copies held for the task: the closure, and the parameter of `operator()` as it runs. -/
def TaskPlace.owners : TaskPlace → Nat
  | .none => 0
  | .queued => 1
  | .running => 2
  | .ran => 1
  | .gone => 0

namespace ConnState

/-- The use count of the connection. -/
def owners (s : ConnState) : Nat :=
  readOwners s.conn.reading + s.conn.timer.funcVec.length + s.task.owners

/-- The destructor runs when the last owner is dropped. -/
def settle (s : ConnState) : ConnState :=
  if s.owners == 0 && !s.destroyed then
    { s with conn := s.conn.destruct, destroyed := true }
  else s

/-- A started connection (`server::accept`). -/
def initial (timeoutMilli : Nat) : ConnState :=
  ⟨(Connection.create timeoutMilli).start, .none, false⟩

end ConnState

/-- The events of a connection. -/
inductive Act where
  | headRead (result : Option (CharArray requestHeaderLen))
  | headHandler
  | bodyRead (result : Option (List UInt8))
  -- `bound`: the router finds the protocol
  | bodyHandler (bound : Bool)
  -- `add_task` enqueues the task; a stopped pool skips this
  | enqueue
  | routeReturns
  | popTask
  -- the task runs: what its function leaves, and for the write what is left of its header and the
  -- error, if any
  | runTask (result : Except String Str) (remains : Remains responseHeaderLen)
      (ec : Option String)
  -- the worker's `task` variable goes
  | dropTask
  -- the queue is cleared
  | clearTask
  | expire
  -- the `n`-th queued completion handler of the timer runs
  | timerHandler (n : Nat)

/-- An event, before the owners are counted. -/
def ConnState.apply (s : ConnState) : Act → Option ConnState
  | .headRead result => (s.conn.headRead result).map fun c => { s with conn := c }
  | .headHandler => s.conn.headHandler.map fun c => { s with conn := c }
  | .bodyRead result => (s.conn.bodyRead result).map fun c => { s with conn := c }
  | .bodyHandler bound => s.conn.bodyHandler.map fun
      | .returned c => { s with conn := c }
      | .route c _ _ _ => { s with conn := if bound then c else c.routeReturned false }
  | .enqueue =>
      if s.conn.reading = .routing ∧ s.task = .none then some { s with task := .queued }
      else none
  | .routeReturns =>
      if s.conn.reading = .routing then some { s with conn := s.conn.routeReturned true }
      else none
  | .popTask => if s.task = .queued then some { s with task := .running } else none
  | .runTask result remains ec =>
      if s.task = .running then
        some { s with conn := s.conn.respond result remains ec, task := .ran }
      else none
  | .dropTask => if s.task = .ran then some { s with task := .gone } else none
  | .clearTask => if s.task = .queued then some { s with task := .gone } else none
  | .expire =>
      if s.conn.timer.waiting ≠ [] then
        some { s with conn := s.conn.setTimer s.conn.timer.expire }
      else none
  | .timerHandler n => (s.conn.timerHandler n).map fun c => { s with conn := c }

/-- One step: what the act does, and the destruction of the connection where it took the last
    owner away. -/
def ConnState.step (s : ConnState) (a : Act) : Option ConnState :=
  (s.apply a).map ConnState.settle

/-- One connection of the server, from the accept on. -/
def connSystem (timeoutMilli : Nat) : System ConnState Act where
  start s := s = .initial timeoutMilli
  step := ConnState.step

/-! ## The property -/

/-- No read outstanding, no wait of the timer pending, no task queued or running. -/
def Quiescent (s : ConnState) : Prop :=
  s.conn.reading = .idle ∧ s.conn.timer.waiting = [] ∧ s.conn.timer.ready = []
    ∧ (s.task = .none ∨ s.task = .gone)

/-- Nothing is left to happen only once the socket is closed. -/
def Released (s : ConnState) : Prop :=
  Quiescent s → s.conn.isOpen = false

/-- The request ends without a failure: its response is written, its task is discarded unrun, or
    a stopped pool has not taken it. -/
def QuietEnd (s : ConnState) : Act → Prop
  | .runTask result remains ec =>
      ∃ body c, result = .ok body ∧ s.conn.write body remains ec = .ok c
  | .clearTask => True
  | .routeReturns => s.task = .none
  | _ => False

/-- A quiet end under a timeout, with no expiry left that could still close the socket. -/
def Strands (s : ConnState) (a : Act) : Prop :=
  QuietEnd s a ∧ s.conn.timeoutMilli ≠ 0 ∧ s.conn.isOpen = true ∧ ¬ s.conn.timer.Fired

/-! ## What one event does -/

/-- The events by their effect, before the owners are counted. -/
inductive Moves (s : ConnState) : Act → ConnState → Prop where
  | headFails : s.conn.reading = .head →
      Moves s (.headRead none) { s with conn := s.conn.setReading (.headDone true) }
  | headArrives (bytes : CharArray requestHeaderLen) :
      s.conn.reading = .head → s.conn.isOpen = true →
      Moves s (.headRead (some bytes))
        { s with conn := { s.conn with head := bytes, reading := .headDone false } }
  | headRefused (ec : Bool) (reqHead : RequestHeader) : s.conn.reading = .headDone ec →
      Moves s .headHandler
        { s with conn := (s.conn.setReqHead reqHead).stopTimer.disconnect.setReading .idle }
  | headAccepted (reqHead : RequestHeader) :
      s.conn.reading = .headDone false → s.conn.isOpen = true →
      Moves s .headHandler { s with conn := (s.conn.setReqHead reqHead).readProtocolAndBody }
  | bodyFails : s.conn.reading = .body →
      Moves s (.bodyRead none) { s with conn := s.conn.setReading (.bodyDone true) }
  | bodyArrives (bytes : List UInt8) : s.conn.reading = .body → s.conn.isOpen = true →
      Moves s (.bodyRead (some bytes))
        { s with conn := { s.conn with protocolAndBody := bytes, reading := .bodyDone false } }
  | bodyRefused (ec bound : Bool) : s.conn.reading = .bodyDone ec →
      Moves s (.bodyHandler bound)
        { s with conn := s.conn.stopTimer.disconnect.setReading .idle }
  | bodyUnbound : s.conn.reading = .bodyDone false → s.conn.isOpen = true →
      Moves s (.bodyHandler false)
        { s with conn := (s.conn.stopTimer.setReading .routing).routeReturned false }
  | bodyRoutes : s.conn.reading = .bodyDone false → s.conn.isOpen = true →
      Moves s (.bodyHandler true) { s with conn := s.conn.stopTimer.setReading .routing }
  | enqueues : s.conn.reading = .routing → s.task = .none →
      Moves s .enqueue { s with task := .queued }
  | routeReturns : s.conn.reading = .routing →
      Moves s .routeReturns { s with conn := s.conn.setReading .idle }
  | pops : s.task = .queued → Moves s .popTask { s with task := .running }
  | fails (result : Except String Str) (remains : Remains responseHeaderLen)
      (ec : Option String) : s.task = .running →
      (∀ body c, result = .ok body → s.conn.write body remains ec ≠ .ok c) →
      Moves s (.runTask result remains ec) { s with conn := s.conn.disconnect, task := .ran }
  | answers (body : Str) (remains : Remains responseHeaderLen) (ec : Option String)
      (c : Connection) : s.task = .running → s.conn.write body remains ec = .ok c →
      Moves s (.runTask (.ok body) remains ec) { s with conn := c, task := .ran }
  | drops : s.task = .ran → Moves s .dropTask { s with task := .gone }
  | clears : s.task = .queued → Moves s .clearTask { s with task := .gone }
  | expires : s.conn.timer.waiting ≠ [] →
      Moves s .expire { s with conn := s.conn.setTimer s.conn.timer.expire }
  | aborted (n duration : Nat) : s.conn.timer.ready[n]? = some (duration, true) →
      Moves s (.timerHandler n) { s with conn := s.conn.setTimer (s.conn.timer.dequeue n) }
  | fires (n duration : Nat) : s.conn.timer.ready[n]? = some (duration, false) →
      s.conn.timer.funcVec ≠ [] →
      Moves s (.timerHandler n) { s with
        conn := s.conn.disconnect.setTimer ((s.conn.timer.dequeue n).rearm duration) }
  | firesIdly (n duration : Nat) : s.conn.timer.ready[n]? = some (duration, false) →
      s.conn.timer.funcVec = [] →
      Moves s (.timerHandler n) { s with
        conn := s.conn.setTimer ((s.conn.timer.dequeue n).rearm duration) }

/-- **STEP INVERSION**: every step is one of the moves, followed by the count. -/
theorem step_cases {s s' : ConnState} {a : Act} (h : s.step a = some s') :
    ∃ t, Moves s a t ∧ s' = t.settle := by
  obtain ⟨t, ht, rfl⟩ := Option.map_eq_some_iff.mp h
  refine ⟨t, ?_, rfl⟩
  cases a with
  | headRead result =>
      obtain ⟨c, hc, rfl⟩ := Option.map_eq_some_iff.mp ht
      obtain ⟨hr, ⟨rfl, rfl⟩ | ⟨bytes, rfl, hopen, rfl⟩⟩ := Connection.headRead_cases hc
      · exact .headFails hr
      · exact .headArrives bytes hr hopen
  | headHandler =>
      obtain ⟨c, hc, rfl⟩ := Option.map_eq_some_iff.mp ht
      obtain ⟨ec, reqHead, hr, rfl | ⟨rfl, hopen, -, rfl⟩⟩ := Connection.headHandler_cases hc
      · exact .headRefused ec reqHead hr
      · exact .headAccepted reqHead hr hopen
  | bodyRead result =>
      obtain ⟨c, hc, rfl⟩ := Option.map_eq_some_iff.mp ht
      obtain ⟨hr, ⟨rfl, rfl⟩ | ⟨bytes, rfl, hopen, -, rfl⟩⟩ := Connection.bodyRead_cases hc
      · exact .bodyFails hr
      · exact .bodyArrives bytes hr hopen
  | bodyHandler bound =>
      obtain ⟨r, hr, rfl⟩ := Option.map_eq_some_iff.mp ht
      obtain ⟨ec, hec, rfl | ⟨protocol, body, rfl, hopen, -, -, rfl⟩⟩ :=
        Connection.bodyHandler_cases hr
      · exact .bodyRefused ec bound hec
      · cases bound with
        | false => exact .bodyUnbound hec hopen
        | true => exact .bodyRoutes hec hopen
  | enqueue =>
      obtain ⟨⟨hr, htask⟩, hs⟩ := Option.ite_none_right_eq_some.mp ht
      cases hs
      exact .enqueues hr htask
  | routeReturns =>
      obtain ⟨hr, hs⟩ := Option.ite_none_right_eq_some.mp ht
      cases hs
      exact .routeReturns hr
  | popTask =>
      obtain ⟨htask, hs⟩ := Option.ite_none_right_eq_some.mp ht
      cases hs
      exact .pops htask
  | runTask result remains ec =>
      obtain ⟨htask, hs⟩ := Option.ite_none_right_eq_some.mp ht
      cases hs
      obtain ⟨body, rfl, hw⟩ | ⟨hd, hno⟩ := s.conn.respond_cases result remains ec
      · exact .answers body remains ec _ htask hw
      · rw [hd]
        exact .fails result remains ec htask hno
  | dropTask =>
      obtain ⟨htask, hs⟩ := Option.ite_none_right_eq_some.mp ht
      cases hs
      exact .drops htask
  | clearTask =>
      obtain ⟨htask, hs⟩ := Option.ite_none_right_eq_some.mp ht
      cases hs
      exact .clears htask
  | expire =>
      obtain ⟨hw, hs⟩ := Option.ite_none_right_eq_some.mp ht
      cases hs
      exact .expires hw
  | timerHandler n =>
      obtain ⟨c, hc, rfl⟩ := Option.map_eq_some_iff.mp ht
      obtain ⟨duration, ab, hn, ⟨rfl, rfl⟩ | ⟨rfl, hf, rfl⟩ | ⟨rfl, hf, rfl⟩⟩ :=
        Connection.timerHandler_cases hc
      · exact .aborted n duration hn
      · exact .firesIdly n duration hn hf
      · exact .fires n duration hn hf

/-! ## The timer over a run -/

/-- Without a timeout the timer is never touched; with one it keeps the one callback bound by
    `start`, and no wait is left once the body handler has stopped it. -/
structure TimerInv (timeoutMilli : Nat) (c : Connection) : Prop where
  timeout : c.timeoutMilli = timeoutMilli
  unused : timeoutMilli = 0 →
    c.timer.waiting = [] ∧ c.timer.ready = [] ∧ c.timer.funcVec = []
  bound : timeoutMilli ≠ 0 →
    c.timer.funcVec = [.disconnect] ∧ c.timer.isSingleShot = true
  quiet : c.reading = .idle ∨ c.reading = .routing → c.timer.waiting = []

/-- It speaks of the timeout, the timer and the reading only. -/
theorem TimerInv.congr {timeoutMilli : Nat} {c d : Connection} (h : TimerInv timeoutMilli c)
    (htimeout : d.timeoutMilli = c.timeoutMilli) (htimer : d.timer = c.timer)
    (hreading : d.reading = .idle ∨ d.reading = .routing → c.timer.waiting = []) :
    TimerInv timeoutMilli d := by
  refine ⟨htimeout.trans h.timeout, ?_, ?_, ?_⟩
  · rw [htimer]
    exact h.unused
  · rw [htimer]
    exact h.bound
  · rw [htimer]
    exact hreading

/-- A timer that is new but keeps callbacks and mode, and gains neither wait nor handler where
    it has none. -/
theorem TimerInv.setTimer {timeoutMilli : Nat} {c : Connection} {t : Atimer Nat TimerFunc}
    (h : TimerInv timeoutMilli c) (hfuncs : t.funcVec = c.timer.funcVec)
    (hshot : t.isSingleShot = c.timer.isSingleShot)
    (hwaiting : c.timer.waiting = [] → t.waiting = [])
    (hready : c.timer.waiting = [] → c.timer.ready = [] → t.ready = []) :
    TimerInv timeoutMilli (c.setTimer t) := by
  refine ⟨h.timeout, ?_, ?_, ?_⟩
  · intro h0
    obtain ⟨hw, hr, hf⟩ := h.unused h0
    exact ⟨hwaiting hw, hready hw hr, hfuncs.trans hf⟩
  · intro h0
    obtain ⟨hf, hs⟩ := h.bound h0
    exact ⟨hfuncs.trans hf, hshot.trans hs⟩
  · intro hreading
    exact hwaiting (h.quiet hreading)

/-- A timer with nothing pending and nothing queued has nothing queued after a cancel. -/
theorem cancel_ready_nil {t : Atimer Nat TimerFunc} (hw : t.waiting = [])
    (hr : t.ready = []) : t.cancel.ready = [] := by
  show t.ready ++ t.waiting.map (fun w => (w, true)) = []
  rw [hw, hr]
  rfl

/-- `stop_timer` keeps the timer's invariant, and afterwards no wait is pending. -/
theorem TimerInv.stopTimer {timeoutMilli : Nat} {c : Connection} (h : TimerInv timeoutMilli c) :
    TimerInv timeoutMilli c.stopTimer ∧ c.stopTimer.timer.waiting = [] := by
  rw [Connection.stopTimer, h.timeout]
  by_cases h0 : timeoutMilli = 0
  · rw [if_pos (beq_iff_eq.mpr h0)]
    exact ⟨h, (h.unused h0).1⟩
  · rw [if_neg (mt beq_iff_eq.mp h0)]
    exact ⟨h.setTimer rfl rfl (fun _ => rfl) cancel_ready_nil, rfl⟩

/-- `stop_timer` cannot take back an expiry that is queued. -/
theorem fired_stopTimer {c : Connection} :
    c.stopTimer.timer.Fired ↔ c.timer.Fired := by
  rw [Connection.stopTimer]
  split
  · exact Iff.rfl
  · exact Atimer.fired_stop

/-- `start` on a new connection makes the timer's invariant true. -/
theorem TimerInv.start (timeoutMilli : Nat) :
    TimerInv timeoutMilli (Connection.create timeoutMilli).start := by
  by_cases h0 : timeoutMilli = 0
  · subst h0
    refine ⟨rfl, fun _ => ⟨rfl, rfl, rfl⟩, fun h => absurd rfl h, ?_⟩
    rintro (h | h) <;> cases h
  · have hstart : (Connection.create timeoutMilli).start
        = ((Connection.create timeoutMilli).setTimer
            (((Atimer.create.bind .disconnect).setSingleShot true).start timeoutMilli)).setReading
              .head := by
      have hne : ¬ ((Connection.create timeoutMilli).timeoutMilli == 0) = true :=
        mt beq_iff_eq.mp h0
      rw [Connection.start, Connection.readHead, Connection.startTimer, if_neg hne]
      rfl
    rw [hstart]
    refine ⟨rfl, fun h => absurd h h0, fun _ => ⟨rfl, rfl⟩, ?_⟩
    rintro (h | h) <;> cases h

/-- **TIMER INVARIANT**: preserved by every event. -/
theorem TimerInv.moves {timeoutMilli : Nat} {s t : ConnState} {a : Act}
    (h : TimerInv timeoutMilli s.conn) (hm : Moves s a t) : TimerInv timeoutMilli t.conn := by
  obtain ⟨hstop, hnone⟩ := h.stopTimer
  cases hm with
  | headFails | headArrives | headAccepted | bodyFails | bodyArrives =>
      -- the reading goes on: neither idle nor routing afterwards
      refine h.congr rfl rfl ?_
      rintro (hr | hr) <;> exact nomatch hr
  | headRefused ec reqHead hr =>
      obtain ⟨hstop', hnone'⟩ :=
        (h.congr (d := s.conn.setReqHead reqHead) rfl rfl h.quiet).stopTimer
      exact hstop'.congr (by simp) (by simp) fun _ => hnone'
  | bodyRefused ec bound hr => exact hstop.congr (by simp) (by simp) fun _ => hnone
  | bodyUnbound hr hopen =>
      exact hstop.congr (by simp [Connection.routeReturned]) (by simp [Connection.routeReturned])
        fun _ => hnone
  | bodyRoutes hr hopen => exact hstop.congr rfl rfl fun _ => hnone
  | enqueues | pops | drops | clears => exact h
  | routeReturns hr => exact h.congr rfl rfl fun _ => h.quiet (Or.inr hr)
  | fails => exact h.congr (by simp) (by simp) (by simpa using h.quiet)
  | answers body remains ec c htask hw =>
      obtain ⟨-, -, rfl⟩ := Connection.write_ok hw
      exact h.congr rfl rfl h.quiet
  | expires hw =>
      refine h.setTimer rfl rfl (fun _ => rfl) ?_
      intro hnil
      exact absurd hnil hw
  | aborted n duration hn =>
      refine h.setTimer rfl rfl id ?_
      intro _ hready
      rw [hready] at hn
      exact nomatch hn
  | fires n duration hn hf =>
      have h0 : timeoutMilli ≠ 0 := fun h0 => hf (h.unused h0).2.2
      have hrearm : (s.conn.timer.dequeue n).rearm duration = s.conn.timer.dequeue n :=
        Atimer.rearm_of_singleShot (t := s.conn.timer.dequeue n) (h.bound h0).2 duration
      rw [hrearm]
      have hd : TimerInv timeoutMilli s.conn.disconnect :=
        h.congr (by simp) (by simp) (by simpa using h.quiet)
      refine hd.setTimer (by simp) (by simp) (by simp) ?_
      intro _ hready
      rw [Connection.disconnect_timer] at hready
      rw [hready] at hn
      exact nomatch hn
  | firesIdly n duration hn hf =>
      have h0 : timeoutMilli = 0 := by
        by_contra h0
        rw [(h.bound h0).1] at hf
        exact nomatch hf
      rw [(h.unused h0).2.1] at hn
      exact nomatch hn

/-! ## Owners -/

/-- A bound callback is an owner: `func_vec_` holds a closure with the `shared_ptr`. -/
theorem owners_pos {s : ConnState} (hf : s.conn.timer.funcVec ≠ []) : s.owners ≠ 0 := by
  have hlen := List.length_pos_of_ne_nil hf
  rw [ConnState.owners]
  omega

theorem settle_of_owned {s : ConnState} (h : s.owners ≠ 0) : s.settle = s := by
  rw [ConnState.settle, if_neg]
  rw [Bool.and_eq_true, beq_iff_eq, not_and]
  exact fun h0 => absurd h0 h

/-- What the count does: nothing, or it destroys a connection nobody owns. -/
theorem settle_cases (s : ConnState) :
    (s.settle = s ∧ (s.owners = 0 → s.destroyed = true))
    ∨ (s.owners = 0
      ∧ s.settle = { s with conn := s.conn.destruct, destroyed := true }) := by
  by_cases hz : s.owners = 0 ∧ s.destroyed = false
  · refine Or.inr ⟨hz.1, ?_⟩
    rw [ConnState.settle, hz.1, hz.2]
    rfl
  · refine Or.inl ⟨?_, ?_⟩
    · rw [ConnState.settle, if_neg]
      rw [Bool.and_eq_true, beq_iff_eq, Bool.not_eq_true']
      exact hz
    · intro h0
      rw [not_and, Bool.not_eq_false] at hz
      exact hz h0

@[simp] theorem destruct_isOpen (c : Connection) : c.destruct.isOpen = false := by
  simp [Connection.destruct]

/-- The invariant of the owners: under a timeout the connection is never destroyed, and a
    connection nobody owns is closed. -/
structure OwnerInv (timeoutMilli : Nat) (s : ConnState) : Prop where
  timer : TimerInv timeoutMilli s.conn
  dead : s.destroyed = true → timeoutMilli = 0 ∧ s.conn.isOpen = false
  counted : s.owners = 0 → s.conn.isOpen = false

/-- No event reopens a socket or revives a connection. -/
theorem moves_closed {s t : ConnState} {a : Act} (hm : Moves s a t) :
    t.destroyed = s.destroyed ∧ (s.conn.isOpen = false → t.conn.isOpen = false) := by
  cases hm with
  | headFails | headArrives | headAccepted | bodyFails | bodyArrives | enqueues | routeReturns
  | pops | drops | clears | expires | aborted | firesIdly => exact ⟨rfl, id⟩
  | headRefused | bodyRefused | bodyUnbound | fails | fires =>
      exact ⟨rfl, fun _ => by simp [Connection.routeReturned]⟩
  | bodyRoutes => exact ⟨rfl, fun h => by simpa using h⟩
  | answers body remains ec c htask hw =>
      obtain ⟨hopen, -, rfl⟩ := Connection.write_ok hw
      exact ⟨rfl, id⟩

/-- Destroying a connection without owners keeps the invariant, as there is no timeout then and
    the socket is closed. -/
theorem OwnerInv.settle {timeoutMilli : Nat} {s : ConnState}
    (ht : TimerInv timeoutMilli s.conn)
    (hd : s.destroyed = true → timeoutMilli = 0 ∧ s.conn.isOpen = false) :
    OwnerInv timeoutMilli s.settle := by
  obtain ⟨heq, hdead⟩ | ⟨hz, heq⟩ := settle_cases s
  · rw [heq]
    exact ⟨ht, hd, fun h0 => (hd (hdead h0)).2⟩
  · -- no owner: no callback is bound, so the timer was never in use
    have h0 : timeoutMilli = 0 := by
      by_contra h0
      refine owners_pos ?_ hz
      rw [(ht.bound h0).1]
      exact List.cons_ne_nil _ _
    rw [heq]
    refine ⟨?_, fun _ => ⟨h0, destruct_isOpen _⟩, fun _ => destruct_isOpen _⟩
    obtain ⟨hstop, hnone⟩ := ht.stopTimer
    obtain ⟨-, hready, -⟩ := hstop.unused h0
    refine ⟨by simp [Connection.destruct, ht.timeout], fun _ => ⟨rfl, ?_, rfl⟩,
      fun h => absurd h0 h, fun _ => rfl⟩
    show ((s.conn.stopTimer.disconnect).timer.stop).ready = []
    rw [Connection.disconnect_timer]
    exact cancel_ready_nil hnone hready

/-- **THE STEP LEMMA OF THE OWNERS**: the act, then the destruction it may bring. -/
theorem OwnerInv.step {timeoutMilli : Nat} {s s' : ConnState} {a : Act}
    (hI : OwnerInv timeoutMilli s) (hs : s.step a = some s') : OwnerInv timeoutMilli s' := by
  obtain ⟨t, hm, rfl⟩ := step_cases hs
  obtain ⟨hd, hclosed⟩ := moves_closed hm
  refine OwnerInv.settle (hI.timer.moves hm) ?_
  rw [hd]
  intro h
  exact ⟨(hI.dead h).1, hclosed (hI.dead h).2⟩

/-- The owners' invariant holds in every reachable state. -/
theorem ownerInv_of_reaches {timeoutMilli : Nat} {ok : ConnState → Act → Prop} {s : ConnState}
    (h : Reaches (connSystem timeoutMilli) ok s) : OwnerInv timeoutMilli s := by
  refine h.invariant ?_ ?_
  · rintro s rfl
    refine ⟨TimerInv.start timeoutMilli, nofun, ?_⟩
    intro h0
    rw [ConnState.owners] at h0
    have hhead : readOwners (ConnState.initial timeoutMilli).conn.reading = 1 := rfl
    omega
  · intro s a s' hI _ hs
    exact hI.step hs

/-! ## Runs without a quiet end under a timeout -/

/-- The request has ended: its task is over, or there never was one and the reads are over. -/
def Ended (s : ConnState) : Prop :=
  s.task = .ran ∨ s.task = .gone ∨ (s.conn.reading = .idle ∧ s.task = .none)

/-- An ended request has its socket closed, or an expiry on the way that will close it. -/
def Closing (s : ConnState) : Prop :=
  Ended s → s.conn.isOpen = false ∨ s.conn.timer.Fired

/-- An act that does not strand the connection keeps the promise to close it: either the socket is
    closed, or an expiry is queued that will close it. -/
theorem Closing.moves {timeoutMilli : Nat} {s t : ConnState} {a : Act}
    (htimeout : timeoutMilli ≠ 0) (hT : TimerInv timeoutMilli s.conn) (hC : Closing s)
    (hok : ¬ Strands s a) (hm : Moves s a t) : Closing t := by
  -- a quiet end that does not strand leaves the socket closed or an expiry queued
  have hquiet : QuietEnd s a → s.conn.isOpen = false ∨ s.conn.timer.Fired := by
    intro hq
    by_contra hno
    rw [not_or, Bool.not_eq_false] at hno
    refine hok ⟨hq, ?_, hno.1, hno.2⟩
    rw [hT.timeout]
    exact htimeout
  cases hm with
  | headFails | headArrives | headAccepted | bodyFails | bodyArrives =>
      rintro (h | h | ⟨h, -⟩)
      · exact hC (Or.inl h)
      · exact hC (Or.inr (Or.inl h))
      · exact nomatch h
  | headRefused | bodyRefused | bodyUnbound | fails | fires =>
      exact fun _ => Or.inl (by simp [Connection.routeReturned])
  | bodyRoutes hr hopen =>
      -- stopping the timer does not take back an expiry
      have hkeep : s.conn.isOpen = false ∨ s.conn.timer.Fired →
          (s.conn.stopTimer.setReading .routing).isOpen = false
            ∨ (s.conn.stopTimer.setReading .routing).timer.Fired := by
        rintro (hclosed | hfired)
        · exact Or.inl (by simpa using hclosed)
        · exact Or.inr (fired_stopTimer.mpr hfired)
      rintro (h | h | ⟨h, -⟩)
      · exact hkeep (hC (Or.inl h))
      · exact hkeep (hC (Or.inr (Or.inl h)))
      · exact nomatch h
  | enqueues hr htask =>
      rintro (h | h | ⟨h, -⟩)
      · exact nomatch h
      · exact nomatch h
      · rw [hr] at h
        exact nomatch h
  | routeReturns hr =>
      rintro (h | h | ⟨-, h⟩)
      · exact hC (Or.inl h)
      · exact hC (Or.inr (Or.inl h))
      · exact hquiet h
  | pops htask =>
      rintro (h | h | ⟨-, h⟩) <;> exact nomatch h
  | answers body remains ec c htask hw =>
      intro _
      have hc := hquiet ⟨body, c, rfl, hw⟩
      obtain ⟨-, -, rfl⟩ := Connection.write_ok hw
      exact hc
  | drops htask => exact fun _ => hC (Or.inl htask)
  | clears htask => exact fun _ => hquiet trivial
  | expires hw =>
      intro h
      rcases hC h with hclosed | ⟨w, hw'⟩
      · exact Or.inl hclosed
      · exact Or.inr ⟨w, List.mem_append_left _ hw'⟩
  | aborted n duration hn =>
      intro h
      rcases hC h with hclosed | hfired
      · exact Or.inl hclosed
      · exact Or.inr ((Atimer.fired_dequeue_aborted hn).mpr hfired)
  | firesIdly n duration hn hf =>
      rw [(hT.bound htimeout).1] at hf
      exact nomatch hf

/-- In every run that strands nothing, the promise to close holds. -/
theorem closing_of_reaches {timeoutMilli : Nat} (htimeout : timeoutMilli ≠ 0) {s : ConnState}
    (h : Reaches (connSystem timeoutMilli) (fun s a => ¬ Strands s a) s) : Closing s := by
  refine h.invariant_of (J := OwnerInv timeoutMilli) (fun _ hr => ownerInv_of_reaches hr) ?_ ?_
  · rintro s rfl (h | h | ⟨h, -⟩) <;> exact nomatch h
  · intro s a s' hO hC hok hs
    obtain ⟨t, hm, rfl⟩ := step_cases hs
    have hbound := ((hO.timer.moves hm).bound htimeout).1
    rw [settle_of_owned (owners_pos (by rw [hbound]; exact List.cons_ne_nil _ _))]
    exact hC.moves htimeout hO.timer hok hm

/-- **THE FORWARD HALF**: in a run that strands nothing, a connection at rest has closed its
    socket. Without a timeout the owners are counted, with one the promise is used. -/
theorem released_of_reaches {timeoutMilli : Nat} {s : ConnState}
    (h : Reaches (connSystem timeoutMilli) (fun s a => ¬ Strands s a) s) : Released s := by
  rintro ⟨hidle, -, hready, htask⟩
  by_cases h0 : timeoutMilli = 0
  · have hO := ownerInv_of_reaches h
    refine hO.counted ?_
    rw [ConnState.owners, hidle, (hO.timer.unused h0).2.2]
    rcases htask with htask | htask <;> rw [htask] <;> rfl
  · have hended : Ended s := by
      rcases htask with htask | htask
      · exact Or.inr (Or.inr ⟨hidle, htask⟩)
      · exact Or.inr (Or.inl htask)
    rcases closing_of_reaches h0 h hended with hclosed | ⟨w, hw⟩
    · exact hclosed
    · rw [hready] at hw
      exact nomatch hw

/-! ## Every quiet end under a timeout strands the connection -/

/-- Nothing that is left to happen closes the socket. -/
structure Stranded (s : ConnState) : Prop where
  isOpen : s.conn.isOpen = true
  ended : Ended s
  reading : s.conn.reading = .idle ∨ s.conn.reading = .routing
  waiting : s.conn.timer.waiting = []
  unfired : ¬ s.conn.timer.Fired
  bound : s.conn.timer.funcVec ≠ []

/-- The reads are over once a task exists or the route call is in progress. -/
def ReadsOver (s : ConnState) : Prop :=
  s.task ≠ .none → s.conn.reading = .idle ∨ s.conn.reading = .routing

/-- While the task is there the read chain is over, and no act starts it again. -/
theorem ReadsOver.moves {s t : ConnState} {a : Act} (h : ReadsOver s) (hm : Moves s a t) :
    ReadsOver t := by
  cases hm with
  | headFails hr | headArrives _ hr | headAccepted _ hr | bodyFails hr | bodyArrives _ hr =>
      intro htask
      have hover := h htask
      rw [hr] at hover
      rcases hover with hover | hover <;> exact nomatch hover
  | headRefused | bodyRefused | routeReturns => exact fun _ => Or.inl rfl
  | bodyUnbound => exact fun _ => Or.inl (by simp [Connection.routeReturned])
  | bodyRoutes => exact fun _ => Or.inr rfl
  | enqueues hr htask => exact fun _ => Or.inr hr
  | pops htask | drops htask | clears htask =>
      exact fun _ => h (by rw [htask]; exact nofun)
  | fails result remains ec htask hno =>
      intro _
      have hover := h (by rw [htask]; exact nofun)
      simpa using hover
  | answers body remains ec c htask hw =>
      obtain ⟨-, -, rfl⟩ := Connection.write_ok hw
      exact fun _ => h (by rw [htask]; exact nofun)
  | expires | aborted | firesIdly => exact h
  | fires =>
      intro htask
      have hover := h htask
      simpa using hover

/-- The destruction changes neither the read chain nor the task. -/
theorem settle_reading (s : ConnState) :
    s.settle.conn.reading = s.conn.reading ∧ s.settle.task = s.task := by
  obtain ⟨heq, -⟩ | ⟨-, heq⟩ := settle_cases s
  · rw [heq]
    exact ⟨rfl, rfl⟩
  · rw [heq]
    exact ⟨by simp [Connection.destruct], rfl⟩

/-- A task is there only when the read chain is over, in every reachable state. -/
theorem readsOver_of_reaches {timeoutMilli : Nat} {ok : ConnState → Act → Prop} {s : ConnState}
    (h : Reaches (connSystem timeoutMilli) ok s) : ReadsOver s := by
  refine h.invariant ?_ ?_
  · rintro s rfl h
    exact absurd rfl h
  · intro s a s' hI _ hs
    obtain ⟨t, hm, rfl⟩ := step_cases hs
    obtain ⟨hr, htask⟩ := settle_reading t
    rw [ReadsOver, hr, htask]
    exact hI.moves hm

/-- A quiet end under a timeout with no expiry queued leaves a stranded connection. -/
theorem stranded_of_strands {timeoutMilli : Nat} {s t : ConnState} {a : Act}
    (hT : TimerInv timeoutMilli s.conn) (hR : ReadsOver s) (ha : Strands s a)
    (hm : Moves s a t) : Stranded t := by
  obtain ⟨hq, htimeout, hopen, hunfired⟩ := ha
  have hbound : s.conn.timer.funcVec ≠ [] := by
    rw [hT.timeout] at htimeout
    rw [(hT.bound htimeout).1]
    exact List.cons_ne_nil _ _
  cases hm with
  | answers body remains ec c htask hw =>
      have hover := hR (by rw [htask]; exact nofun)
      obtain ⟨-, -, rfl⟩ := Connection.write_ok hw
      exact ⟨hopen, Or.inl rfl, hover, hT.quiet hover, hunfired, hbound⟩
  | fails result remains ec htask hno =>
      obtain ⟨body, c, hr, hw⟩ := hq
      exact absurd hw (hno body c hr)
  | clears htask =>
      have hover := hR (by rw [htask]; exact nofun)
      exact ⟨hopen, Or.inr (Or.inl rfl), hover, hT.quiet hover, hunfired, hbound⟩
  | routeReturns hr =>
      exact ⟨hopen, Or.inr (Or.inr ⟨rfl, hq⟩), Or.inl rfl, hT.quiet (Or.inr hr), hunfired,
        hbound⟩
  | headFails | headArrives | headRefused | headAccepted | bodyFails | bodyArrives | bodyRefused
  | bodyUnbound | bodyRoutes | enqueues | pops | drops | expires | aborted | fires
  | firesIdly => exact hq.elim

/-- With a callback bound nothing is destroyed: the act is the whole step. -/
theorem step_of_apply {s t : ConnState} {a : Act} (h : s.apply a = some t)
    (hf : t.conn.timer.funcVec ≠ []) : s.step a = some t := by
  rw [ConnState.step, h, Option.map_some, settle_of_owned (owners_pos hf)]

section Drain

variable {s : ConnState} (timeoutMilli : Nat)

/-- The worker lets go of its task. -/
theorem Stranded.drop (h : Stranded s) :
    ∃ t, Leads (connSystem timeoutMilli) s t ∧ Stranded t ∧ t.task ≠ .ran := by
  by_cases hran : s.task = .ran
  · refine ⟨{ s with task := .gone },
      Leads.one (a := .dropTask) (step_of_apply (if_pos hran) h.bound), ?_, nofun⟩
    exact ⟨h.isOpen, Or.inr (Or.inl rfl), h.reading, h.waiting, h.unfired, h.bound⟩
  · exact ⟨s, Leads.refl _ s, h, hran⟩

/-- The route call returns. -/
theorem Stranded.returns (h : Stranded s) (hran : s.task ≠ .ran) :
    ∃ t, Leads (connSystem timeoutMilli) s t ∧ Stranded t ∧ t.conn.reading = .idle
      ∧ (t.task = .none ∨ t.task = .gone) := by
  rcases h.reading with hidle | hrouting
  · refine ⟨s, Leads.refl _ s, h, hidle, ?_⟩
    rcases h.ended with h' | h' | ⟨-, h'⟩
    · exact absurd h' hran
    · exact Or.inr h'
    · exact Or.inl h'
  · have hgone : s.task = .gone := by
      rcases h.ended with h' | h' | ⟨h', -⟩
      · exact absurd h' hran
      · exact h'
      · rw [hrouting] at h'
        exact nomatch h'
    refine ⟨{ s with conn := s.conn.setReading .idle },
      Leads.one (a := .routeReturns) (step_of_apply (if_pos hrouting) h.bound), ?_, rfl,
      Or.inr hgone⟩
    exact ⟨h.isOpen, Or.inr (Or.inl hgone), Or.inl rfl, h.waiting, h.unfired, h.bound⟩

/-- The aborted handlers run, one after the other. -/
theorem Stranded.drain (n : Nat) :
    ∀ {s : ConnState}, Stranded s → s.conn.reading = .idle →
      (s.task = .none ∨ s.task = .gone) → s.conn.timer.ready.length = n →
      ∃ t, Leads (connSystem timeoutMilli) s t ∧ ¬ Released t := by
  induction n with
  | zero =>
      intro s h hidle htask hlen
      refine ⟨s, Leads.refl _ s, ?_⟩
      intro hrel
      have hclosed := hrel ⟨hidle, h.waiting, List.length_eq_zero_iff.mp hlen, htask⟩
      rw [h.isOpen] at hclosed
      exact nomatch hclosed
  | succ n ih =>
      intro s h hidle htask hlen
      obtain ⟨⟨duration, aborted⟩, rest, hready⟩ := List.exists_cons_of_length_eq_add_one hlen
      have hab : aborted = true := by
        cases aborted with
        | true => rfl
        | false => exact absurd ⟨duration, by rw [hready]; exact List.mem_cons_self⟩ h.unfired
      subst hab
      have hhead : s.conn.timer.ready[0]? = some (duration, true) := by rw [hready]; rfl
      have hstep : s.step (.timerHandler 0)
          = some { s with conn := s.conn.setTimer (s.conn.timer.dequeue 0) } := by
        refine step_of_apply ?_ h.bound
        show (s.conn.timerHandler 0).map _ = _
        simp only [Connection.timerHandler, hhead, if_true, Option.map_some]
      have hnext : Stranded { s with conn := s.conn.setTimer (s.conn.timer.dequeue 0) } :=
        ⟨h.isOpen, h.ended, h.reading, h.waiting, mt Atimer.fired_dequeue h.unfired, h.bound⟩
      have hleft : (s.conn.timer.dequeue 0).ready.length = n := by
        show (s.conn.timer.ready.eraseIdx 0).length = n
        rw [hready] at hlen ⊢
        exact Nat.succ.inj hlen
      obtain ⟨t, hlead, hrel⟩ := ih hnext hidle htask hleft
      exact ⟨t, hlead.cons (a := .timerHandler 0) hstep, hrel⟩

/-- A stranded connection comes to rest with its socket open. -/
theorem Stranded.rests (h : Stranded s) :
    ∃ t, Leads (connSystem timeoutMilli) s t ∧ ¬ Released t := by
  obtain ⟨t, hst, ht, hran⟩ := h.drop timeoutMilli
  obtain ⟨u, htu, hu, hidle, htask⟩ := ht.returns timeoutMilli hran
  obtain ⟨v, huv, hv⟩ := hu.drain timeoutMilli u.conn.timer.ready.length hidle htask rfl
  exact ⟨v, hst.trans (htu.trans huv), hv⟩

end Drain

/-- **RELEASE**: a connection is released in every run without a quiet end under a timeout, and
    after every such end the run can go on so that it never is. -/
theorem released_of_noisy_ends (timeoutMilli : Nat) :
    (∀ s, Reaches (connSystem timeoutMilli) (fun s a => ¬ Strands s a) s → Released s)
    ∧ ∀ s a s', Reachable (connSystem timeoutMilli) s → Strands s a → s.step a = some s' →
        ∃ t, Leads (connSystem timeoutMilli) s' t ∧ ¬ Released t := by
  refine ⟨fun s h => released_of_reaches h, ?_⟩
  intro s a s' hr ha hs
  obtain ⟨t, hm, rfl⟩ := step_cases hs
  have hst := stranded_of_strands (ownerInv_of_reaches hr).timer (readsOver_of_reaches hr) ha hm
  rw [settle_of_owned (owners_pos hst.bound)]
  exact hst.rests timeoutMilli

/-! ### One answered call -/

/-- A one-byte protocol with an empty body, read, routed, and taken by a worker. -/
def readAndRouted : List Act :=
  [.headRead (some ⟨[1, 0, 0, 0, 0, 0, 0, 0, 1, 0, 0, 0], rfl⟩), .headHandler,
    .bodyRead (some [97]), .bodyHandler true, .enqueue, .routeReturns, .popTask]

/-- The connection of a request that has been answered with the empty result. -/
def answered (timeoutMilli : Nat) (isOpen destroyed : Bool) (timer : Atimer Nat TimerFunc)
    (task : TaskPlace) (sent : List (List UInt8)) : ConnState where
  conn :=
    { isOpen := isOpen
      head := ⟨[1, 0, 0, 0, 0, 0, 0, 0, 1, 0, 0, 0], rfl⟩
      reqHead := ⟨1, 0, .nonRaw⟩
      protocolAndBody := [97]
      timer := timer
      timeoutMilli := timeoutMilli
      reading := .idle
      sent := sent }
  task := task
  destroyed := destroyed

/-- A header that never arrives closes the socket; a response written under a timeout is the
    start of a continuation that does not. -/
theorem released_of_noisy_ends_at_3000 :
    (∃ s, exec (connSystem 3000) (.initial 3000)
        [.headRead none, .headHandler, .timerHandler 0] = some s ∧ Released s)
    ∧ ∃ s t, exec (connSystem 3000) (.initial 3000)
        (readAndRouted ++ [.runTask (.ok []) .kept none]) = some s
      ∧ Leads (connSystem 3000) s t ∧ ¬ Released t := by
  constructor
  · have hok : ∀ a ∈ [Act.headRead none, .headHandler, .timerHandler 0], ∀ s,
        ¬ Strands s a := by
      intro a ha s hst
      simp only [List.mem_cons, List.not_mem_nil, or_false] at ha
      rcases ha with rfl | rfl | rfl <;> exact hst.1.elim
    refine ⟨_, rfl, (released_of_noisy_ends 3000).1 _ ?_⟩
    exact Reaches.exec hok (Reaches.start rfl) rfl
  · have hstart : Reachable (connSystem 3000) (.initial 3000) := Reachable.start rfl
    have hexec : exec (connSystem 3000) (.initial 3000) readAndRouted
        = some (answered 3000 true false ⟨[], [(3000, true)], [.disconnect], true⟩
          .running []) := rfl
    have hr := hstart.exec hexec
    have hquiet : Strands (answered 3000 true false ⟨[], [(3000, true)], [.disconnect], true⟩
        .running []) (.runTask (.ok []) .kept none) := by
      refine ⟨⟨[], _, rfl, rfl⟩, by decide, rfl, ?_⟩
      rintro ⟨w, hw⟩
      simp only [answered, List.mem_singleton, Prod.mk.injEq] at hw
      cases hw.2
    obtain ⟨t, ht⟩ := (released_of_noisy_ends 3000).2 _ _ _ hr hquiet rfl
    exact ⟨_, t, rfl, ht⟩

/-- An ordinary successful call to a server with a timeout of three seconds ends with nothing
    left to happen and the socket open. -/
theorem answered_call_stays_open :
    ∃ s, Reachable (connSystem 3000) s ∧ Quiescent s ∧ s.conn.isOpen = true
      ∧ ¬ Released s := by
  have hexec : exec (connSystem 3000) (.initial 3000)
      (readAndRouted ++ [.runTask (.ok []) .kept none, .dropTask, .timerHandler 0])
      = some (answered 3000 true false ⟨[], [], [.disconnect], true⟩ .gone [[0, 0, 0, 0]]) := by
    rfl
  have hstart : Reachable (connSystem 3000) (.initial 3000) := Reachable.start rfl
  have hr := hstart.exec hexec
  have hq : Quiescent (answered 3000 true false ⟨[], [], [.disconnect], true⟩ .gone
      [[0, 0, 0, 0]]) := ⟨rfl, rfl, rfl, Or.inr rfl⟩
  exact ⟨_, hr, hq, rfl, fun h => nomatch h hq⟩

end EasyRpcConnectionRelease
