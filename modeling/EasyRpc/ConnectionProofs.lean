import EasyRpc.AtimerProofs
import EasyRpc.WireProofs

/-! # A server connection — its reads, its timer and its response

    `connection` reads one request (`read_head`, then `read_protocol_and_body`), hands it to the
    router, and answers it from a worker thread (`write`).  While a read is outstanding its
    completion handler owns the connection; the guards of the two handlers close the socket on
    every exit that does not go on to the next stage.

    An asynchronous read is split in two: its completion, which stores the bytes and queues the
    handler, and the handler itself, which runs later and may find the socket closed. -/

namespace EasyRpcConnection

open EasyRpcAtimer EasyRpcWire

/-- The callback that `start_timer` binds: `[this, self]{ disconnect(); }`. -/
inductive TimerFunc where
  | disconnect
  deriving DecidableEq

/-- The asynchronous read in progress; `ec` tells whether it completed with an error. -/
inductive Reading where
  -- no read is outstanding and no read handler is queued or running
  | idle
  | head
  | headDone (ec : Bool)
  | body
  | bodyDone (ec : Bool)
  -- the handler of the body read is inside its call of `router::route`
  | routing
  deriving DecidableEq

/-- The members of a `connection`, with the state of its socket: whether it is open, which read
    is in progress, and the frames it has sent. -/
structure Connection where
  isOpen : Bool
  head : CharArray requestHeaderLen
  reqHead : RequestHeader
  protocolAndBody : List UInt8
  timer : Atimer Nat TimerFunc
  timeoutMilli : Nat
  reading : Reading
  sent : List (List UInt8)

namespace Connection

/-- The connection at another stage of its read chain. -/
def setReading (c : Connection) (reading : Reading) : Connection := { c with reading := reading }

/-- `req_head_` as `check_head` leaves it, on success and on failure alike. -/
def setReqHead (c : Connection) (reqHead : RequestHeader) : Connection :=
  { c with reqHead := reqHead }

/-- The connection with its `timer_` in another state. -/
def setTimer (c : Connection) (timer : Atimer Nat TimerFunc) : Connection :=
  { c with timer := timer }

/-- `connection::disconnect`: shut down and close a socket that is open, leave a closed one alone.
    -/
def disconnect (c : Connection) : Connection :=
  if c.isOpen then { c with isOpen := false } else c

/-- What a callback of `func_vec_` does: the only one bound is `disconnect`. -/
def callFunc (c : Connection) : TimerFunc → Connection
  | .disconnect => c.disconnect

/-- `connection::start_timer`: nothing without a timeout, else one more `disconnect` bound, single
    shot set and the timer started. -/
def startTimer (c : Connection) : Connection :=
  if c.timeoutMilli == 0 then c
  else
    c.setTimer (((c.timer.bind .disconnect).setSingleShot true).start c.timeoutMilli)

/-- `connection::stop_timer`: nothing without a timeout, else the timer stopped. -/
def stopTimer (c : Connection) : Connection :=
  if c.timeoutMilli == 0 then c else c.setTimer c.timer.stop

/-- `connection::read_head`: start the timer and read twelve bytes. -/
def readHead (c : Connection) : Connection :=
  c.startTimer.setReading .head

/-- `start`, on an accepted socket (`set_no_delay` only sets an option of the socket). -/
def start (c : Connection) : Connection := c.readHead

/-- `connection(ios, timeout_milli)` with its socket connected by `async_accept`. -/
def create (timeoutMilli : Nat) : Connection where
  isOpen := true
  head := ⟨List.replicate requestHeaderLen 0, List.length_replicate⟩
  reqHead := ⟨0, 0, .raw⟩
  protocolAndBody := []
  timer := .create
  timeoutMilli := timeoutMilli
  reading := .idle
  sent := []

/-! ## The two reads and their handlers -/

/-- The header read completes: with an error (`none`), or with the header's bytes, which takes
    an open socket. -/
def headRead (c : Connection) (result : Option (CharArray requestHeaderLen)) :
    Option Connection :=
  match c.reading, result with
  | .head, none => some (c.setReading (.headDone true))
  | .head, some bytes =>
      if c.isOpen then some { c with head := bytes, reading := .headDone false } else none
  | _, _ => none

/-- `connection::read_protocol_and_body`: resize the buffer by the header and read that many
    bytes, under the timer `read_head` started. -/
def readProtocolAndBody (c : Connection) : Connection :=
  { c with protocolAndBody := resizeProtocolAndBody c.reqHead, reading := .body }

/-- The handler of the header read.  Its guard stops the timer and closes the socket unless the
    body read has been started. -/
def headHandler (c : Connection) : Option Connection :=
  let guard (c : Connection) := c.stopTimer.disconnect.setReading .idle
  match c.reading with
  | .headDone ec =>
      if !c.isOpen then some (guard c)
      else if ec then some (guard c)
      else
        let (reqHead, ok) := checkHead c.head
        let c := c.setReqHead reqHead
        if ok then some c.readProtocolAndBody else some (guard c)
  | _ => none

/-- The body read completes: with an error, or with exactly the bytes the buffer holds. -/
def bodyRead (c : Connection) (result : Option (List UInt8)) : Option Connection :=
  match c.reading, result with
  | .body, none => some (c.setReading (.bodyDone true))
  | .body, some bytes =>
      if c.isOpen && bytes.length == c.protocolAndBody.length then
        some { c with protocolAndBody := bytes, reading := .bodyDone false }
      else none
  | _, _ => none

/-- What the handler of the body read comes to: it returns, or it calls
    `router::route(protocol, body, mode, self)`. -/
inductive BodyResult where
  | returned (c : Connection)
  | route (c : Connection) (protocol body : Str) (mode : CallMode)

/-- The handler of the body read up to the route call; undefined (`none`) also where a slice
    reads past the buffer. -/
def bodyHandler (c : Connection) : Option BodyResult :=
  match c.reading with
  | .bodyDone ec =>
      let c := c.stopTimer
      -- the guard is made after this test: a closed socket needs none
      if !c.isOpen then some (.returned (c.setReading .idle))
      else if ec then some (.returned (c.disconnect.setReading .idle))
      else
        match protocolSlice c.reqHead c.protocolAndBody,
            bodySlice c.reqHead c.protocolAndBody with
        | some protocol, some body =>
            some (.route (c.setReading .routing) protocol body c.reqHead.mode)
        | _, _ => none
  | _ => none

/-- The rest of the handler, once `route` has returned `ok`. -/
def routeReturned (c : Connection) (ok : Bool) : Connection :=
  if ok then c.setReading .idle else c.disconnect.setReading .idle

/-- The completion handler of the timer's wait, `n`-th in the queue. -/
def timerHandler (c : Connection) (n : Nat) : Option Connection :=
  match c.timer.ready[n]? with
  | none => none
  | some (duration, aborted) =>
      let c := c.setTimer (c.timer.dequeue n)
      if aborted then some c
      else
        let c := c.timer.funcVec.foldl callFunc c
        some (c.setTimer (c.timer.rearm duration))

/-! ## The response -/

/-- `get_buffer`: the two buffers that are gathered into one write, with what is left of the header
    when they are read. -/
def getBuffer (head : ResponseHeader) (remains : Remains responseHeaderLen) (body : Str) :
    List (List UInt8) :=
  [(remains.read head.toArray).bytes, body]

/-- `write_impl`; `ec` is the error the operating system reports, if any. -/
def writeImpl (c : Connection) (buffer : List (List UInt8)) (ec : Option String) :
    Except String Connection :=
  if !c.isOpen then .error "Bad file descriptor"
  else
    match ec with
    | some message => .error message
    | none => .ok { c with sent := c.sent ++ [buffer.flatten] }

/-- `write`: the connection with the frame sent, or the text of the exception. -/
def write (c : Connection) (body : Str) (remains : Remains responseHeaderLen)
    (ec : Option String) : Except String Connection :=
  let bodyLen := narrowedSize body
  if bodyLen > maxBufferLen.toUInt32 then .error "Send data is too big"
  else c.writeImpl (getBuffer ⟨bodyLen⟩ remains body) ec

/-- What `invoker_function::operator()` does with the connection, once its function has left a
    result or the text of an exception. -/
def respond (c : Connection) (result : Except String Str) (remains : Remains responseHeaderLen)
    (ec : Option String) : Connection :=
  match result with
  | .error _ => c.disconnect
  | .ok body =>
      match c.write body remains ec with
      | .error _ => c.disconnect
      | .ok c => c

/-- `~connection`, and with it `~atimer` and the destructor of `func_vec_`. -/
def destruct (c : Connection) : Connection :=
  let c := c.stopTimer.disconnect
  c.setTimer { c.timer.stop with funcVec := [] }

/-! ## What each function changes -/

section Fields

variable (c : Connection)

@[simp] theorem setReading_isOpen (r : Reading) : (c.setReading r).isOpen = c.isOpen := rfl
@[simp] theorem setReading_timer (r : Reading) : (c.setReading r).timer = c.timer := rfl
@[simp] theorem setReading_reading (r : Reading) : (c.setReading r).reading = r := rfl
@[simp] theorem setReading_sent (r : Reading) : (c.setReading r).sent = c.sent := rfl
@[simp] theorem setReading_timeoutMilli (r : Reading) :
    (c.setReading r).timeoutMilli = c.timeoutMilli := rfl

@[simp] theorem setTimer_isOpen (t : Atimer Nat TimerFunc) :
    (c.setTimer t).isOpen = c.isOpen := rfl
@[simp] theorem setTimer_timer (t : Atimer Nat TimerFunc) : (c.setTimer t).timer = t := rfl
@[simp] theorem setTimer_reading (t : Atimer Nat TimerFunc) :
    (c.setTimer t).reading = c.reading := rfl
@[simp] theorem setTimer_timeoutMilli (t : Atimer Nat TimerFunc) :
    (c.setTimer t).timeoutMilli = c.timeoutMilli := rfl

/-- Closing a closed socket again changes nothing. -/
theorem disconnect_eq : c.disconnect = { c with isOpen := false } := by
  cases h : c.isOpen with
  | true => rw [disconnect, h]; rfl
  | false =>
      rw [disconnect, h]
      show c = { c with isOpen := false }
      rw [← h]

@[simp] theorem disconnect_isOpen : c.disconnect.isOpen = false := by rw [disconnect_eq]

@[simp] theorem disconnect_timer : c.disconnect.timer = c.timer := by rw [disconnect_eq]

@[simp] theorem disconnect_timeoutMilli : c.disconnect.timeoutMilli = c.timeoutMilli := by
  rw [disconnect_eq]

@[simp] theorem disconnect_reading : c.disconnect.reading = c.reading := by rw [disconnect_eq]

@[simp] theorem disconnect_sent : c.disconnect.sent = c.sent := by rw [disconnect_eq]

theorem disconnect_of_closed {c : Connection} (h : c.isOpen = false) : c.disconnect = c := by
  rw [disconnect_eq, ← h]

/-- Stopping the timer touches nothing else. -/
theorem stopTimer_eq : c.stopTimer = c.setTimer c.stopTimer.timer := by
  rw [stopTimer]
  split <;> rfl

@[simp] theorem stopTimer_isOpen : c.stopTimer.isOpen = c.isOpen := by
  rw [stopTimer_eq, setTimer_isOpen]

@[simp] theorem stopTimer_timeoutMilli : c.stopTimer.timeoutMilli = c.timeoutMilli := by
  rw [stopTimer_eq, setTimer_timeoutMilli]

@[simp] theorem stopTimer_reading : c.stopTimer.reading = c.reading := by
  rw [stopTimer_eq, setTimer_reading]

@[simp] theorem stopTimer_reqHead : c.stopTimer.reqHead = c.reqHead := by
  rw [stopTimer_eq]
  rfl

@[simp] theorem stopTimer_protocolAndBody :
    c.stopTimer.protocolAndBody = c.protocolAndBody := by
  rw [stopTimer_eq]
  rfl

@[simp] theorem stopTimer_sent : c.stopTimer.sent = c.sent := by
  rw [stopTimer_eq]
  rfl

end Fields

/-- All callbacks together close the socket, if there is one at all. -/
theorem foldl_callFunc (funcs : List TimerFunc) (c : Connection) :
    funcs.foldl callFunc c = if funcs = [] then c else c.disconnect := by
  induction funcs generalizing c with
  | nil => rfl
  | cons func funcs ih =>
      cases func with
      | disconnect =>
          rw [List.foldl_cons, ih, if_neg (List.cons_ne_nil _ _)]
          show (if funcs = [] then c.disconnect else c.disconnect.disconnect) = c.disconnect
          rw [disconnect_of_closed c.disconnect_isOpen, ite_self]

/-! ## What each step can come to -/

/-- **WHAT THE HEADER READ CAN DO**: it fails and keeps the header of before, or it brings twelve
    bytes over an open socket. Both leave the connection before its handler. -/
theorem headRead_cases {c c' : Connection} {result : Option (CharArray requestHeaderLen)}
    (h : c.headRead result = some c') :
    c.reading = .head
    ∧ ((result = none ∧ c' = c.setReading (.headDone true))
      ∨ ∃ bytes, result = some bytes ∧ c.isOpen = true
        ∧ c' = { c with head := bytes, reading := .headDone false }) := by
  unfold headRead at h
  split at h
  · rename_i hr
    cases h
    exact ⟨hr, Or.inl ⟨rfl, rfl⟩⟩
  · rename_i bytes hr
    split at h
    · rename_i hopen
      cases h
      exact ⟨hr, Or.inr ⟨bytes, rfl, hopen, rfl⟩⟩
    · cases h
  · cases h

/-- **WHAT THE HEADER HANDLER CAN DO**: stop the timer, close and end, or go on to the body, and
    this only after a read without error, on an open socket and with a header that `check_head`
    accepts. -/
theorem headHandler_cases {c c' : Connection} (h : c.headHandler = some c') :
    ∃ ec reqHead, c.reading = .headDone ec
      ∧ (c' = (c.setReqHead reqHead).stopTimer.disconnect.setReading .idle
        ∨ (ec = false ∧ c.isOpen = true ∧ checkHead c.head = (reqHead, true)
          ∧ c' = (c.setReqHead reqHead).readProtocolAndBody)) := by
  unfold headHandler at h
  split at h
  · rename_i ec hr
    by_cases hexit : c.isOpen = false ∨ ec = true
    · refine ⟨ec, c.reqHead, hr, Or.inl ?_⟩
      rcases hexit with hclosed | rfl
      · simp only [hclosed, Bool.not_false, if_true, Option.some.injEq] at h
        exact h.symm
      · simp only [if_true, ite_self, Option.some.injEq] at h
        exact h.symm
    · rw [not_or, Bool.not_eq_false, Bool.not_eq_true] at hexit
      obtain ⟨hopen, rfl⟩ := hexit
      obtain ⟨reqHead, ok, hv⟩ : ∃ reqHead ok, checkHead c.head = (reqHead, ok) :=
        ⟨_, _, rfl⟩
      simp only [hopen, hv, Bool.not_true, Bool.false_eq_true, if_false] at h
      cases ok with
      | false =>
          exact ⟨false, reqHead, hr, Or.inl (Option.some.inj h).symm⟩
      | true =>
          exact ⟨false, reqHead, hr, Or.inr ⟨rfl, hopen, hv, (Option.some.inj h).symm⟩⟩
  · cases h

/-- **WHAT THE BODY READ CAN DO**: it fails, or it fills the buffer to its length over an open
    socket. -/
theorem bodyRead_cases {c c' : Connection} {result : Option (List UInt8)}
    (h : c.bodyRead result = some c') :
    c.reading = .body
    ∧ ((result = none ∧ c' = c.setReading (.bodyDone true))
      ∨ ∃ bytes, result = some bytes ∧ c.isOpen = true
        ∧ bytes.length = c.protocolAndBody.length
        ∧ c' = { c with protocolAndBody := bytes, reading := .bodyDone false }) := by
  unfold bodyRead at h
  split at h
  · rename_i hr
    cases h
    exact ⟨hr, Or.inl ⟨rfl, rfl⟩⟩
  · rename_i bytes hr
    split at h
    · rename_i hok
      rw [Bool.and_eq_true, beq_iff_eq] at hok
      cases h
      exact ⟨hr, Or.inr ⟨bytes, rfl, hok.1, hok.2, rfl⟩⟩
    · cases h
  · cases h

/-- **WHAT THE BODY HANDLER CAN DO**: stop the timer, close and end, or route the two slices of
    the buffer, and this only after a read without error and on an open socket. -/
theorem bodyHandler_cases {c : Connection} {r : BodyResult} (h : c.bodyHandler = some r) :
    ∃ ec, c.reading = .bodyDone ec
      ∧ (r = .returned (c.stopTimer.disconnect.setReading .idle)
        ∨ ∃ protocol body, ec = false ∧ c.isOpen = true
          ∧ protocolSlice c.reqHead c.protocolAndBody = some protocol
          ∧ bodySlice c.reqHead c.protocolAndBody = some body
          ∧ r = .route (c.stopTimer.setReading .routing) protocol body c.reqHead.mode) := by
  unfold bodyHandler at h
  split at h
  · rename_i ec hr
    refine ⟨ec, hr, ?_⟩
    simp only [stopTimer_isOpen, stopTimer_reqHead, stopTimer_protocolAndBody] at h
    cases hopen : c.isOpen with
    | false =>
        rw [hopen] at h
        have hcl : c.stopTimer.isOpen = false := by rw [stopTimer_isOpen, hopen]
        rw [disconnect_of_closed hcl]
        exact Or.inl (Option.some.inj h).symm
    | true =>
        cases ec with
        | true =>
            rw [hopen] at h
            exact Or.inl (Option.some.inj h).symm
        | false =>
            simp only [hopen, Bool.not_true, Bool.false_eq_true, if_false] at h
            split at h
            · rename_i protocol body hp hb
              exact Or.inr ⟨protocol, body, rfl, rfl, hp, hb, (Option.some.inj h).symm⟩
            · cases h
  · cases h

/-- **WHAT A TIMER HANDLER CAN DO**: an aborted one returns at once; one that ran out calls
    `disconnect` if any callback is bound, and starts a further wait only in the repeating mode.
    -/
theorem timerHandler_cases {c c' : Connection} {n : Nat} (h : c.timerHandler n = some c') :
    ∃ duration aborted, c.timer.ready[n]? = some (duration, aborted)
      ∧ ((aborted = true ∧ c' = c.setTimer (c.timer.dequeue n))
        ∨ (aborted = false ∧ c.timer.funcVec = []
          ∧ c' = c.setTimer ((c.timer.dequeue n).rearm duration))
        ∨ (aborted = false ∧ c.timer.funcVec ≠ []
          ∧ c' = c.disconnect.setTimer ((c.timer.dequeue n).rearm duration))) := by
  unfold timerHandler at h
  split at h
  · cases h
  · rename_i duration aborted hn
    refine ⟨duration, aborted, hn, ?_⟩
    cases aborted with
    | true => exact Or.inl ⟨rfl, (Option.some.inj h).symm⟩
    | false =>
        simp only [Bool.false_eq_true, if_false, foldl_callFunc, setTimer_timer,
          Atimer.dequeue_funcVec, Option.some.injEq] at h
        by_cases hf : c.timer.funcVec = []
        · rw [if_pos hf] at h
          exact Or.inr (Or.inl ⟨rfl, hf, h.symm⟩)
        · rw [if_neg hf, disconnect_timer] at h
          refine Or.inr (Or.inr ⟨rfl, hf, ?_⟩)
          rw [← h, disconnect_eq, disconnect_eq]
          rfl

/-- A written response leaves everything but the sent frames as it was. -/
theorem write_ok {c c' : Connection} {body : Str} {remains : Remains responseHeaderLen}
    {ec : Option String} (h : c.write body remains ec = .ok c') :
    c.isOpen = true ∧ ec = none ∧ c' = { c with
      sent := c.sent ++ [(getBuffer ⟨narrowedSize body⟩ remains body).flatten] } := by
  simp only [write] at h
  split at h
  · cases h
  · unfold writeImpl at h
    cases hopen : c.isOpen with
    | false =>
        rw [hopen] at h
        cases h
    | true =>
        rw [hopen] at h
        cases ec with
        | some message => cases h
        | none =>
            refine ⟨rfl, rfl, ?_⟩
            cases h
            rfl

/-- The empty result is never too big. -/
theorem write_empty {c : Connection} (hopen : c.isOpen = true)
    (remains : Remains responseHeaderLen) :
    c.write [] remains none
      = .ok { c with sent := c.sent ++ [(getBuffer ⟨0⟩ remains []).flatten] } := by
  have hsmall : ¬ narrowedSize [] > maxBufferLen.toUInt32 := by decide
  rw [write, if_neg hsmall, writeImpl, hopen]
  rfl

/-- Answering a task sends one frame, or it closes the socket. -/
theorem respond_cases (c : Connection) (result : Except String Str)
    (remains : Remains responseHeaderLen) (ec : Option String) :
    (∃ body, result = .ok body ∧ c.write body remains ec = .ok (c.respond result remains ec))
    ∨ (c.respond result remains ec = c.disconnect
      ∧ ∀ body c', result = .ok body → c.write body remains ec ≠ .ok c') := by
  cases result with
  | error message => exact Or.inr ⟨rfl, nofun⟩
  | ok body =>
      cases hw : c.write body remains ec with
      | error message =>
          refine Or.inr ⟨?_, ?_⟩
          · simp only [respond, hw]
          · rintro body' c' ⟨⟩
            rw [hw]
            exact nofun
      | ok c' =>
          refine Or.inl ⟨body, rfl, ?_⟩
          simp only [respond, hw]

end Connection

end EasyRpcConnection
