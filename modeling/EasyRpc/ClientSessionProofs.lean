import EasyRpc.AtimerProofs
import EasyRpc.TransitionProofs

/-! # A client's session — calls on one thread, expiries on another

    `client::call` and `call_raw` open a connection, send a request, start the timer, read the
    response, stop the timer and close the connection, all on the calling thread and under the
    client's mutex.  The timer's handler runs on a second thread and closes the session's socket,
    whichever connection that socket holds by then.

    `stop_timer` cancels only a wait that has not expired.  An expiry that is already queued, or
    whose callbacks are still running, outlives the call that armed it; if it outlives the next
    `connect` as well, it closes the connection of the later call.  That is the only way
    (`timeouts_do_not_cross`). -/

namespace EasyRpcSession

open Transition EasyRpcAtimer

/-- The session's socket; `connected` names the call that opened the connection. -/
inductive Socket where
  | closed
  -- open after a connect that failed on every endpoint
  | unconnected
  | connected (call : Nat)
  deriving DecidableEq

/-- The callback that `start_timer` binds: `[this]{ disconnect(); }`. -/
inductive TimerFunc where
  | disconnect

/-- Where the calling thread is in `client::call` or `call_raw`. -/
inductive Pc where
  | idle
  -- before `session_.connect()`
  | connect
  -- packing the arguments, with the guard that disconnects in place
  | pack
  | write
  | startTimer
  -- reading, with the guard that stops the timer in place
  | readHead
  | checkHead
  | readBody
  -- leaving `read`; `ok` tells whether it returns a body
  | stopTimer (ok : Bool)
  | unpack
  -- leaving the call
  | disconnect
  deriving DecidableEq

/-- The thread that runs `timer_ios_`. -/
inductive TimerThread where
  | idle
  -- in the handler of an expired wait, with `left` callbacks to go
  | running (armedBy left : Nat)
  deriving DecidableEq

/-- The session.  A wait of the timer carries the call that armed it. -/
structure Session where
  socket : Socket
  timer : Atimer Nat TimerFunc
  timeoutMilli : Nat
  pc : Pc
  -- the number of calls begun; the current call goes by it
  calls : Nat
  timerThread : TimerThread
  -- for each connection closed by an expiry, the call that armed it and the connection's call
  closedByTimer : List (Nat × Nat)

namespace Session

/-- A session with no call yet: the socket closed and the timer unused. -/
def create (timeoutMilli : Nat) : Session :=
  ⟨.closed, .create, timeoutMilli, .idle, 0, .idle, []⟩

/-- The calling thread at another place of `rpc_session::call`. -/
def setPc (s : Session) (pc : Pc) : Session := { s with pc := pc }

/-- `client_session::disconnect`: close the socket unless it is closed. -/
def disconnect (s : Session) : Session :=
  match s.socket with
  | .closed => s
  | _ => { s with socket := .closed }

/-- `client_session::start_timer`: nothing without a timeout, else one more `disconnect` bound,
    single shot set and the timer started for the call under way. -/
def startTimer (s : Session) : Session :=
  if s.timeoutMilli == 0 then s
  else { s with timer := ((s.timer.bind .disconnect).setSingleShot true).start s.calls }

/-- `client_session::stop_timer`: nothing without a timeout, else the timer stopped. -/
def stopTimer (s : Session) : Session :=
  if s.timeoutMilli == 0 then s else { s with timer := s.timer.stop }

/-- `boost::asio::connect` closes the socket, then opens it for one endpoint after the other; a
    failure on all of them throws with the socket left open. -/
def connect (s : Session) (ok : Bool) : Session :=
  if ok then { s with socket := .connected s.calls, pc := .pack }
  else { s with socket := .unconnected, pc := .idle }

/-- What the socket says to the calls made on it: connected or not. -/
def isConnected (s : Session) : Bool :=
  match s.socket with
  | .connected _ => true
  | _ => false

/-- The next step of the calling thread; `ok` is its outcome.  Reads and writes succeed only on a
    connected socket. -/
def callStep (s : Session) (ok : Bool) : Option Session :=
  match s.pc with
  | .idle => none
  | .connect => some (s.connect ok)
  | .pack => some (s.setPc (if ok then .write else .disconnect))
  | .write =>
      if ok && !s.isConnected then none
      else some (s.setPc (if ok then .startTimer else .disconnect))
  | .startTimer => some (s.startTimer.setPc .readHead)
  | .readHead =>
      if ok && !s.isConnected then none
      else some (s.setPc (if ok then .checkHead else .stopTimer false))
  | .checkHead => some (s.setPc (if ok then .readBody else .stopTimer false))
  | .readBody =>
      if ok && !s.isConnected then none else some (s.setPc (.stopTimer ok))
  | .stopTimer ok' => some (s.stopTimer.setPc (if ok' then .unpack else .disconnect))
  | .unpack => some (s.setPc .disconnect)
  | .disconnect => some (s.disconnect.setPc .idle)

/-- The timer thread takes the `n`-th queued completion handler. -/
def timerTake (s : Session) (n : Nat) : Option Session :=
  match s.timerThread, s.timer.ready[n]? with
  | .idle, some (armedBy, aborted) =>
      let s := { s with timer := s.timer.dequeue n }
      if aborted then some s
      else some { s with timerThread := .running armedBy s.timer.funcVec.length }
  | _, _ => none

/-- The next callback of the handler: `disconnect`. -/
def timerCallback (s : Session) : Option Session :=
  match s.timerThread with
  | .running armedBy (left + 1) =>
      let s := { s with timerThread := .running armedBy left }
      match s.socket with
      | .connected call =>
          some { s.disconnect with closedByTimer := s.closedByTimer ++ [(armedBy, call)] }
      | _ => some s.disconnect
  | _ => none

/-- The end of the handler. -/
def timerEnd (s : Session) : Option Session :=
  match s.timerThread with
  | .running armedBy 0 =>
      some { s with timer := s.timer.rearm armedBy, timerThread := .idle }
  | _ => none

end Session

/-- What can happen next: the calling thread, or the timer with the thread that serves it. -/
inductive Act where
  -- a new call begins
  | call
  -- the calling thread goes on
  | callStep (ok : Bool)
  -- the deadline of the timer passes
  | expire
  | timerTake (n : Nat)
  | timerCallback
  | timerEnd
  deriving DecidableEq

/-- One step of a session. The calling thread and the thread that runs the timer's handlers take
    turns in any order. -/
def Session.step (s : Session) : Act → Option Session
  | .call =>
      match s.pc with
      | .idle => some { s with pc := .connect, calls := s.calls + 1 }
      | _ => none
  | .callStep ok => s.callStep ok
  | .expire =>
      if s.timer.waiting ≠ [] then some { s with timer := s.timer.expire } else none
  | .timerTake n => s.timerTake n
  | .timerCallback => s.timerCallback
  | .timerEnd => s.timerEnd

/-- A session as a transition system. -/
def sessionSystem (timeoutMilli : Nat) : System Session Act where
  start s := s = .create timeoutMilli
  step := Session.step

/-- Every connection that an expiry closed was the connection of the call that armed it. -/
def TimeoutsKeepToTheirCalls (s : Session) : Prop :=
  ∀ e ∈ s.closedByTimer, e.1 = e.2

/-- An expiry is queued, or its handler has callbacks to go. -/
def ExpiryPending (s : Session) : Prop :=
  s.timer.Fired ∨ ∃ armedBy left, s.timerThread = .running armedBy (left + 1)

/-- A call connects while an expiry is pending. -/
def ConnectsUnderExpiry (s : Session) (a : Act) : Prop :=
  s.pc = .connect ∧ a = .callStep true ∧ ExpiryPending s

/-! ## The steps by their effect -/

/-- The steps of the calling thread between connecting and disconnecting that leave the socket
    and the timer alone. -/
inductive Moves : Pc → Pc → Prop where
  | packs : Moves .pack .write
  | packFails : Moves .pack .disconnect
  | writes : Moves .write .startTimer
  | writeFails : Moves .write .disconnect
  | readsHead : Moves .readHead .checkHead
  | readHeadFails : Moves .readHead (.stopTimer false)
  | checksHead : Moves .checkHead .readBody
  | checkHeadFails : Moves .checkHead (.stopTimer false)
  | readsBody (ok : Bool) : Moves .readBody (.stopTimer ok)
  | unpacks : Moves .unpack .disconnect

/-- The steps of `Session.step` as a relation: one constructor for each thing the calling thread
    or the timer thread can do. -/
inductive Step (s : Session) : Act → Session → Prop where
  | calls : s.pc = .idle → Step s .call { s with pc := .connect, calls := s.calls + 1 }
  | connects : s.pc = .connect →
      Step s (.callStep true) { s with socket := .connected s.calls, pc := .pack }
  | connectFails : s.pc = .connect →
      Step s (.callStep false) { s with socket := .unconnected, pc := .idle }
  | moves (ok : Bool) (pc : Pc) : Moves s.pc pc → Step s (.callStep ok) (s.setPc pc)
  | startsTimer (ok : Bool) : s.pc = .startTimer →
      Step s (.callStep ok) (s.startTimer.setPc .readHead)
  | stopsTimer (ok ok' : Bool) : s.pc = .stopTimer ok' →
      Step s (.callStep ok) (s.stopTimer.setPc (if ok' then .unpack else .disconnect))
  | disconnects (ok : Bool) : s.pc = .disconnect →
      Step s (.callStep ok) (s.disconnect.setPc .idle)
  | expires : s.timer.waiting ≠ [] → Step s .expire { s with timer := s.timer.expire }
  | takesAborted (n armedBy : Nat) : s.timerThread = .idle →
      s.timer.ready[n]? = some (armedBy, true) →
      Step s (.timerTake n) { s with timer := s.timer.dequeue n }
  | takes (n armedBy : Nat) : s.timerThread = .idle →
      s.timer.ready[n]? = some (armedBy, false) →
      Step s (.timerTake n) { s with
        timer := s.timer.dequeue n
        timerThread := .running armedBy s.timer.funcVec.length }
  | closes (armedBy left call : Nat) : s.timerThread = .running armedBy (left + 1) →
      s.socket = .connected call →
      Step s .timerCallback { s with
        socket := .closed
        timerThread := .running armedBy left
        closedByTimer := s.closedByTimer ++ [(armedBy, call)] }
  | closesNothing (armedBy left : Nat) : s.timerThread = .running armedBy (left + 1) →
      s.isConnected = false →
      Step s .timerCallback { s with socket := .closed, timerThread := .running armedBy left }
  | ends (armedBy : Nat) : s.timerThread = .running armedBy 0 →
      Step s .timerEnd { s with timer := s.timer.rearm armedBy, timerThread := .idle }

section Fields

variable (s : Session)

/-- Stopping the timer touches nothing else. -/
theorem Session.stopTimer_eq : s.stopTimer = { s with timer := s.stopTimer.timer } := by
  rw [stopTimer]
  split <;> rfl

/-- Starting the timer touches nothing else. -/
theorem Session.startTimer_eq : s.startTimer = { s with timer := s.startTimer.timer } := by
  rw [startTimer]
  split <;> rfl

@[simp] theorem Session.stopTimer_socket : s.stopTimer.socket = s.socket := by
  rw [stopTimer_eq]

@[simp] theorem Session.stopTimer_calls : s.stopTimer.calls = s.calls := by
  rw [stopTimer_eq]

@[simp] theorem Session.stopTimer_thread : s.stopTimer.timerThread = s.timerThread := by
  rw [stopTimer_eq]

@[simp] theorem Session.stopTimer_closed : s.stopTimer.closedByTimer = s.closedByTimer := by
  rw [stopTimer_eq]

@[simp] theorem Session.startTimer_socket : s.startTimer.socket = s.socket := by
  rw [startTimer_eq]

@[simp] theorem Session.startTimer_calls : s.startTimer.calls = s.calls := by
  rw [startTimer_eq]

@[simp] theorem Session.startTimer_thread : s.startTimer.timerThread = s.timerThread := by
  rw [startTimer_eq]

@[simp] theorem Session.startTimer_closed : s.startTimer.closedByTimer = s.closedByTimer := by
  rw [startTimer_eq]

end Fields

/-- `disconnect` in one form: the socket is closed afterwards, whatever it was. -/
theorem Session.disconnect_eq (s : Session) : s.disconnect = { s with socket := .closed } := by
  cases h : s.socket with
  | closed =>
      rw [disconnect, h]
      show s = { s with socket := .closed }
      rw [← h]
  | unconnected | connected => rw [disconnect, h]

/-- A move of the calling thread to one of two places. -/
theorem Step.of_moves {s s' : Session} {ok : Bool} {pc pc' : Pc} (ht : Moves s.pc pc)
    (hf : Moves s.pc pc') (h : some (s.setPc (if ok then pc else pc')) = some s') :
    Step s (.callStep ok) s' := by
  cases h
  cases ok with
  | true => exact .moves true pc ht
  | false => exact .moves false pc' hf

/-- The steps of the calling thread. -/
theorem callStep_cases {s s' : Session} {ok : Bool} (h : s.callStep ok = some s') :
    Step s (.callStep ok) s' := by
  unfold Session.callStep at h
  split at h
  · cases h
  · rename_i hpc
    cases h
    cases ok with
    | true => exact .connects hpc
    | false => exact .connectFails hpc
  · rename_i hpc
    exact .of_moves (hpc ▸ .packs) (hpc ▸ .packFails) h
  · rename_i hpc
    obtain ⟨-, h⟩ := Option.ite_none_left_eq_some.mp h
    exact .of_moves (hpc ▸ .writes) (hpc ▸ .writeFails) h
  · rename_i hpc
    cases h
    exact .startsTimer ok hpc
  · rename_i hpc
    obtain ⟨-, h⟩ := Option.ite_none_left_eq_some.mp h
    exact .of_moves (hpc ▸ .readsHead) (hpc ▸ .readHeadFails) h
  · rename_i hpc
    exact .of_moves (hpc ▸ .checksHead) (hpc ▸ .checkHeadFails) h
  · rename_i hpc
    obtain ⟨-, h⟩ := Option.ite_none_left_eq_some.mp h
    cases h
    exact .moves ok _ (hpc ▸ .readsBody ok)
  · rename_i ok' hpc
    cases h
    exact .stopsTimer ok ok' hpc
  · rename_i hpc
    cases h
    exact .moves ok _ (hpc ▸ .unpacks)
  · rename_i hpc
    cases h
    exact .disconnects ok hpc

/-- **STEP INVERSION**. -/
theorem step_cases {s s' : Session} {a : Act} (h : s.step a = some s') : Step s a s' := by
  cases a with
  | call =>
      cases hpc : s.pc <;> simp only [Session.step, hpc] at h <;> cases h
      exact .calls hpc
  | callStep ok => exact callStep_cases h
  | expire =>
      obtain ⟨hw, hs⟩ := Option.ite_none_right_eq_some.mp h
      cases hs
      exact .expires hw
  | timerTake n =>
      replace h : s.timerTake n = some s' := h
      rw [Session.timerTake] at h
      split at h
      · rename_i armedBy aborted hidle hn
        cases aborted with
        | true =>
            cases h
            exact .takesAborted n armedBy hidle hn
        | false =>
            cases h
            exact .takes n armedBy hidle hn
      · cases h
  | timerCallback =>
      replace h : s.timerCallback = some s' := h
      rw [Session.timerCallback] at h
      split at h
      · rename_i armedBy left hrun
        cases hsock : s.socket with
        | connected call =>
            simp only [hsock, Session.disconnect_eq] at h
            cases h
            exact .closes armedBy left call hrun hsock
        | closed | unconnected =>
            have hno : s.isConnected = false := by rw [Session.isConnected, hsock]
            simp only [hsock, Session.disconnect_eq] at h
            cases h
            exact .closesNothing armedBy left hrun hno
      · cases h
  | timerEnd =>
      replace h : s.timerEnd = some s' := h
      rw [Session.timerEnd] at h
      split at h
      · rename_i armedBy hrun
        cases h
        exact .ends armedBy hrun
      · cases h

/-! ## The timer and the calls, in every run -/

/-- The calling thread is between starting the timer and stopping it. -/
def Pc.timed : Pc → Bool
  | .readHead => true
  | .checkHead => true
  | .readBody => true
  | .stopTimer _ => true
  | _ => false

/-- The calling thread has the session's guard in place: it will disconnect. -/
def Pc.guarded : Pc → Bool
  | .idle => false
  | .connect => false
  | _ => true

/-- A step that only moves on stays inside or outside the timed part. -/
theorem Moves.timed {pc pc' : Pc} (h : Moves pc pc') : pc'.timed = pc.timed := by
  cases h <;> rfl

/-- A step that only moves on ends where the scope guard is alive. -/
theorem Moves.guarded {pc pc' : Pc} (h : Moves pc pc') : pc'.guarded = true := by
  cases h <;> rfl

/-- The waits, queued expiries and running handlers, by the call that armed them. -/
def Armed (s : Session) (k : Nat) : Prop :=
  k ∈ s.timer.waiting ∨ (k, false) ∈ s.timer.ready
    ∨ ∃ left, s.timerThread = .running k left

theorem armed_stopTimer {s : Session} {k : Nat} (h : Armed s.stopTimer k) : Armed s k := by
  rw [Session.stopTimer] at h
  split at h
  · exact h
  · rcases h with hw | hr | hrun
    · exact nomatch hw
    · rcases List.mem_append.mp hr with hready | haborted
      · exact Or.inr (Or.inl hready)
      · obtain ⟨k', -, heq⟩ := List.mem_map.mp haborted
        cases heq
    · exact Or.inr (Or.inr hrun)

/-- Starting the timer arms it for the current call and aborts what was waiting. -/
theorem armed_startTimer {s : Session} {k : Nat} (h : Armed s.startTimer k) :
    Armed s k ∨ k = s.calls := by
  rw [Session.startTimer] at h
  split at h
  · exact Or.inl h
  · rcases h with hw | hr | hrun
    · exact Or.inr (List.mem_singleton.mp hw)
    · rcases List.mem_append.mp hr with hready | haborted
      · exact Or.inl (Or.inr (Or.inl hready))
      · obtain ⟨k', -, heq⟩ := List.mem_map.mp haborted
        cases heq
    · exact Or.inl (Or.inr (Or.inr hrun))

theorem stopTimer_mode (s : Session) :
    s.stopTimer.timer.isSingleShot = s.timer.isSingleShot := by
  rw [Session.stopTimer]
  split <;> rfl

theorem stopTimer_funcs (s : Session) : s.stopTimer.timer.funcVec = s.timer.funcVec := by
  rw [Session.stopTimer]
  split <;> rfl

theorem startTimer_of_zero {s : Session} (h : s.timeoutMilli = 0) : s.startTimer = s :=
  if_pos (beq_iff_eq.mpr h)

/-- With a timeout `start_timer` binds, sets single shot and starts. -/
theorem startTimer_of_ne_zero {s : Session} (h : s.timeoutMilli ≠ 0) :
    s.startTimer = { s with
      timer := ((s.timer.bind .disconnect).setSingleShot true).start s.calls } :=
  if_neg (mt beq_iff_eq.mp h)

/-- A step that binds a callback to the timer. -/
def BindsCallback (s : Session) (a : Act) : Prop :=
  s.pc = .startTimer ∧ s.timeoutMilli ≠ 0 ∧ ∃ ok, a = .callStep ok

theorem not_binds {s : Session} {a : Act} (h : s.pc ≠ .startTimer) : ¬ BindsCallback s a :=
  fun hb => h hb.1

/-- **WHAT A STEP DOES TO THE TIMER'S MODE AND CALLBACKS**. -/
theorem timer_step {s s' : Session} {a : Act} (hs : Step s a s') :
    (BindsCallback s a ∧ s'.timer.isSingleShot = true
      ∧ s'.timer.funcVec = s.timer.funcVec ++ [.disconnect])
    ∨ (¬ BindsCallback s a ∧ s'.timer.isSingleShot = s.timer.isSingleShot
      ∧ s'.timer.funcVec = s.timer.funcVec) := by
  cases hs with
  | startsTimer ok hpc =>
      by_cases h0 : s.timeoutMilli = 0
      · right
        refine ⟨fun h => h.2.1 h0, ?_⟩
        rw [startTimer_of_zero h0]
        exact ⟨rfl, rfl⟩
      · left
        refine ⟨⟨hpc, h0, ok, rfl⟩, ?_⟩
        rw [startTimer_of_ne_zero h0]
        exact ⟨rfl, rfl⟩
  | stopsTimer ok ok' hpc =>
      exact Or.inr ⟨not_binds (by rw [hpc]; nofun), stopTimer_mode s, stopTimer_funcs s⟩
  | connects hpc | connectFails hpc =>
      exact Or.inr ⟨not_binds (by rw [hpc]; nofun), rfl, rfl⟩
  | disconnects ok hpc =>
      rw [Session.disconnect_eq]
      exact Or.inr ⟨not_binds (by rw [hpc]; nofun), rfl, rfl⟩
  | moves ok pc hm =>
      refine Or.inr ⟨?_, rfl, rfl⟩
      rintro ⟨hpc, -⟩
      rw [hpc] at hm
      exact nomatch hm
  | calls | expires | takesAborted | takes | closes | closesNothing =>
      exact Or.inr ⟨(fun ⟨_, _, _, h⟩ => nomatch h), rfl, rfl⟩
  | ends armedBy hrun =>
      exact Or.inr ⟨(fun ⟨_, _, _, h⟩ => nomatch h), Atimer.rearm_mode _ _, Atimer.rearm_funcs _ _⟩

/-- What is armed will run a callback, once. -/
def Shot (s : Session) : Prop :=
  ∀ k, Armed s k → s.timer.isSingleShot = true ∧ s.timer.funcVec ≠ []

/-- **WHAT A STEP ARMS**: nothing but the current call, as it starts the timer. -/
theorem armed_step {s s' : Session} {a : Act} (h : Shot s) (hs : Step s a s') {k : Nat}
    (hk : Armed s' k) : Armed s k ∨ (k = s.calls ∧ BindsCallback s a) := by
  cases hs with
  | calls | connects | connectFails | moves => exact Or.inl hk
  | disconnects ok hpc =>
      rw [Session.disconnect_eq] at hk
      exact Or.inl hk
  | startsTimer ok hpc =>
      by_cases h0 : s.timeoutMilli = 0
      · rw [startTimer_of_zero h0] at hk
        exact Or.inl hk
      · exact (armed_startTimer hk).imp_right fun heq => ⟨heq, hpc, h0, ok, rfl⟩
  | stopsTimer ok ok' hpc => exact Or.inl (armed_stopTimer hk)
  | expires hw =>
      rcases hk with hk | hk | hk
      · exact nomatch hk
      · rcases List.mem_append.mp hk with hready | hexpired
        · exact Or.inl (Or.inr (Or.inl hready))
        · obtain ⟨k', hk', heq⟩ := List.mem_map.mp hexpired
          cases heq
          exact Or.inl (Or.inl hk')
      · exact Or.inl (Or.inr (Or.inr hk))
  | takesAborted n armedBy hidle hn =>
      rcases hk with hk | hk | hk
      · exact Or.inl (Or.inl hk)
      · exact Or.inl (Or.inr (Or.inl (List.mem_of_mem_eraseIdx hk)))
      · exact Or.inl (Or.inr (Or.inr hk))
  | takes n armedBy hidle hn =>
      rcases hk with hk | hk | ⟨left, hk⟩
      · exact Or.inl (Or.inl hk)
      · exact Or.inl (Or.inr (Or.inl (List.mem_of_mem_eraseIdx hk)))
      · cases hk
        exact Or.inl (Or.inr (Or.inl (List.mem_of_getElem? hn)))
  | closes armedBy left call hrun hsock =>
      rcases hk with hk | hk | ⟨left', hk⟩
      · exact Or.inl (Or.inl hk)
      · exact Or.inl (Or.inr (Or.inl hk))
      · cases hk
        exact Or.inl (Or.inr (Or.inr ⟨_, hrun⟩))
  | closesNothing armedBy left hrun hno =>
      rcases hk with hk | hk | ⟨left', hk⟩
      · exact Or.inl (Or.inl hk)
      · exact Or.inl (Or.inr (Or.inl hk))
      · cases hk
        exact Or.inl (Or.inr (Or.inr ⟨_, hrun⟩))
  | ends armedBy hrun =>
      have hshot := (h armedBy (Or.inr (Or.inr ⟨0, hrun⟩))).1
      rw [Atimer.rearm_of_singleShot hshot] at hk
      rcases hk with hk | hk | ⟨left, hk⟩
      · exact Or.inl (Or.inl hk)
      · exact Or.inl (Or.inr (Or.inl hk))
      · exact nomatch hk

/-- Whatever is armed is armed in single shot mode with a callback bound: every step keeps this.
    -/
theorem Shot.step {s s' : Session} {a : Act} (h : Shot s) (hs : Step s a s') : Shot s' := by
  intro k hk
  rcases timer_step hs with ⟨-, hmode, hfuncs⟩ | ⟨hno, hmode, hfuncs⟩
  · rw [hmode, hfuncs]
    exact ⟨rfl, List.append_ne_nil_of_right_ne_nil _ (List.cons_ne_nil _ _)⟩
  · rw [hmode, hfuncs]
    exact h k ((armed_step h hs hk).resolve_right fun hbinds => hno hbinds.2)

/-- What holds of the timer and the socket whatever the interleaving. -/
structure SessionInv (s : Session) : Prop where
  unused : s.timeoutMilli = 0 → s.timer.waiting = []
  -- a wait is on the timer only while its own call reads
  window : ∀ k ∈ s.timer.waiting, s.pc.timed = true ∧ k = s.calls
  socket : ∀ j, s.socket = .connected j → s.pc.guarded = true ∧ j = s.calls
  past : ∀ k, Armed s k → k ≤ s.calls ∧ (s.pc = .connect → k < s.calls)
  shot : ∀ k, Armed s k → s.timer.isSingleShot = true ∧ s.timer.funcVec ≠ []

/-- Between calls, and before the timer is started, nothing waits. -/
theorem SessionInv.waiting_nil {s : Session} (h : SessionInv s) (hpc : s.pc.timed = false) :
    s.timer.waiting = [] := by
  refine List.eq_nil_iff_forall_not_mem.mpr ?_
  intro k hk
  have ht := (h.window k hk).1
  rw [hpc] at ht
  exact nomatch ht

/-- After `stop_timer` no wait is pending, with a timeout or without. -/
theorem stopTimer_waiting {s : Session} (h : SessionInv s) : s.stopTimer.timer.waiting = [] := by
  rw [Session.stopTimer]
  split
  · rename_i h0
    exact h.unused (beq_iff_eq.mp h0)
  · rfl

/-- Steps that arm nothing new and leave the calling thread's progress. -/
theorem SessionInv.mono {s s' : Session} (h : SessionInv s)
    (htimeout : s'.timeoutMilli = s.timeoutMilli)
    (hwaiting : ∀ k ∈ s'.timer.waiting, k ∈ s.timer.waiting) (hpc : s'.pc = s.pc)
    (hcalls : s'.calls = s.calls)
    (hsocket : ∀ j, s'.socket = .connected j → s.socket = .connected j)
    (harmed : ∀ k, Armed s' k → Armed s k) (hshot : Shot s') : SessionInv s' := by
  refine ⟨?_, ?_, ?_, ?_, hshot⟩
  · intro h0
    rw [htimeout] at h0
    refine List.eq_nil_iff_forall_not_mem.mpr ?_
    intro k hk
    have hold := hwaiting k hk
    rw [h.unused h0] at hold
    exact nomatch hold
  · intro k hk
    rw [hpc, hcalls]
    exact h.window k (hwaiting k hk)
  · intro j hj
    rw [hpc, hcalls]
    exact h.socket j (hsocket j hj)
  · intro k hk
    rw [hpc, hcalls]
    exact h.past k (harmed k hk)

/-- The invariant does not depend on the place inside a part of the call. -/
theorem SessionInv.setPc {s : Session} (h : SessionInv s) {pc : Pc}
    (htimed : pc.timed = s.pc.timed) (hguarded : pc.guarded = true) :
    SessionInv (s.setPc pc) := by
  refine ⟨h.unused, ?_, ?_, ?_, h.shot⟩
  · intro k hk
    obtain ⟨ht, hk'⟩ := h.window k hk
    exact ⟨htimed.trans ht, hk'⟩
  · intro j hj
    exact ⟨hguarded, (h.socket j hj).2⟩
  · intro k hk
    refine ⟨(h.past k hk).1, ?_⟩
    rintro rfl
    exact nomatch hguarded

/-- **THE STEP LEMMA OF THE SESSION'S INVARIANT**, one case per step. -/
theorem SessionInv.step {s s' : Session} {a : Act} (h : SessionInv s) (hs : Step s a s') :
    SessionInv s' := by
  have hshot : Shot s' := Shot.step h.shot hs
  have harmed : ∀ k, Armed s' k → Armed s k ∨ (k = s.calls ∧ BindsCallback s a) :=
    fun _ hk => armed_step h.shot hs hk
  have hpast : ∀ k, Armed s' k → k ≤ s.calls := by
    intro k hk
    rcases harmed k hk with hold | ⟨rfl, -⟩
    · exact (h.past k hold).1
    · exact Nat.le_refl _
  cases hs with
  | calls hpc =>
      have hnone := h.waiting_nil (by rw [hpc]; rfl)
      refine ⟨h.unused, ?_, ?_, ?_, hshot⟩
      · intro k hk
        exact absurd (show k ∈ s.timer.waiting from hk) (by rw [hnone]; nofun)
      · intro j hj
        have hg := (h.socket j hj).1
        rw [hpc] at hg
        exact nomatch hg
      · intro k hk
        exact ⟨Nat.le_succ_of_le (hpast k hk), fun _ => Nat.lt_succ_of_le (hpast k hk)⟩
  | connects hpc =>
      have hnone := h.waiting_nil (by rw [hpc]; rfl)
      refine ⟨h.unused, ?_, ?_, fun k hk => ⟨hpast k hk, nofun⟩, hshot⟩
      · intro k hk
        exact absurd (show k ∈ s.timer.waiting from hk) (by rw [hnone]; nofun)
      · rintro j ⟨⟩
        exact ⟨rfl, rfl⟩
  | connectFails hpc =>
      have hnone := h.waiting_nil (by rw [hpc]; rfl)
      refine ⟨h.unused, ?_, nofun, fun k hk => ⟨hpast k hk, nofun⟩, hshot⟩
      intro k hk
      exact absurd (show k ∈ s.timer.waiting from hk) (by rw [hnone]; nofun)
  | moves ok pc hm => exact h.setPc hm.timed hm.guarded
  | startsTimer ok hpc =>
      have hsocket : ∀ j, s.startTimer.socket = .connected j → j = s.startTimer.calls := by
        intro j hj
        rw [Session.startTimer_socket] at hj
        rw [Session.startTimer_calls]
        exact (h.socket j hj).2
      refine ⟨?_, ?_, fun j hj => ⟨rfl, hsocket j hj⟩, ?_, hshot⟩
      · by_cases h0 : s.timeoutMilli = 0
        · rw [startTimer_of_zero h0]
          exact h.unused
        · rw [startTimer_of_ne_zero h0]
          exact fun hz => absurd hz h0
      · by_cases h0 : s.timeoutMilli = 0
        · rw [startTimer_of_zero h0]
          intro k hk
          exact absurd (show k ∈ s.timer.waiting from hk) (by rw [h.unused h0]; nofun)
        · rw [startTimer_of_ne_zero h0]
          intro k hk
          exact ⟨rfl, List.mem_singleton.mp hk⟩
      · intro k hk
        exact ⟨s.startTimer_calls.symm ▸ hpast k hk, nofun⟩
  | stopsTimer ok ok' hpc =>
      have hnone := stopTimer_waiting h
      refine ⟨fun _ => hnone, ?_, ?_, ?_, hshot⟩
      · intro k hk
        exact absurd (show k ∈ s.stopTimer.timer.waiting from hk) (by rw [hnone]; exact nofun)
      · intro j hj
        replace hj : s.stopTimer.socket = .connected j := hj
        rw [Session.stopTimer_socket] at hj
        refine ⟨?_, (h.socket j hj).2.trans s.stopTimer_calls.symm⟩
        cases ok' <;> rfl
      · intro k hk
        refine ⟨s.stopTimer_calls.symm ▸ hpast k hk, ?_⟩
        cases ok' <;> exact nofun
  | disconnects ok hpc =>
      rw [Session.disconnect_eq] at hshot hpast ⊢
      have hnone := h.waiting_nil (by rw [hpc]; rfl)
      refine ⟨h.unused, ?_, nofun, fun k hk => ⟨hpast k hk, nofun⟩, hshot⟩
      intro k hk
      exact absurd (show k ∈ s.timer.waiting from hk) (by rw [hnone]; nofun)
  | expires hw =>
      refine h.mono rfl nofun rfl rfl (fun _ hj => hj) ?_ hshot
      intro k hk
      exact (harmed k hk).resolve_right fun ⟨_, _, _, _, heq⟩ => nomatch heq
  | takesAborted | takes =>
      refine h.mono rfl (fun _ hk => hk) rfl rfl (fun _ hj => hj) ?_ hshot
      intro k hk
      exact (harmed k hk).resolve_right fun ⟨_, _, _, _, heq⟩ => nomatch heq
  | closes | closesNothing =>
      refine h.mono rfl (fun _ hk => hk) rfl rfl nofun ?_ hshot
      intro k hk
      exact (harmed k hk).resolve_right fun ⟨_, _, _, _, heq⟩ => nomatch heq
  | ends armedBy hrun =>
      have hsingle := (h.shot armedBy (Or.inr (Or.inr ⟨0, hrun⟩))).1
      rw [Atimer.rearm_of_singleShot hsingle] at hshot harmed ⊢
      refine h.mono rfl (fun _ hk => hk) rfl rfl (fun _ hj => hj) ?_ hshot
      intro k hk
      exact (harmed k hk).resolve_right fun ⟨_, _, _, _, heq⟩ => nomatch heq

/-- The invariant holds in every reachable state, whatever the runs are restricted to. -/
theorem sessionInv_of_reaches {timeoutMilli : Nat} {ok : Session → Act → Prop} {s : Session}
    (h : Reaches (sessionSystem timeoutMilli) ok s) : SessionInv s := by
  refine h.invariant ?_ ?_
  · rintro s rfl
    refine ⟨fun _ => rfl, nofun, nofun, ?_, ?_⟩
    · rintro k (hk | hk | ⟨left, hk⟩) <;> exact nomatch hk
    · rintro k (hk | hk | ⟨left, hk⟩) <;> exact nomatch hk
  · intro s a s' hI _ hs
    exact hI.step (step_cases hs)

/-! ## Runs in which no call connects under a pending expiry -/

/-- The pending expiries belong to the connection that is open. -/
structure Current (s : Session) : Prop where
  queued : ∀ j k, s.socket = .connected j → (k, false) ∈ s.timer.ready → k = j
  running : ∀ j k left, s.socket = .connected j → s.timerThread = .running k (left + 1) → k = j
  log : TimeoutsKeepToTheirCalls s

/-- A step that closes the socket, or leaves it and adds no pending expiry. -/
theorem Current.mono {s s' : Session} (h : Current s)
    (hsocket : ∀ j, s'.socket = .connected j → s.socket = .connected j)
    (hready : ∀ k, (k, false) ∈ s'.timer.ready → (k, false) ∈ s.timer.ready)
    (hrunning : ∀ k left, s'.timerThread = .running k (left + 1) →
      ∃ left, s.timerThread = .running k (left + 1))
    (hlog : s'.closedByTimer = s.closedByTimer) : Current s' := by
  refine ⟨?_, ?_, ?_⟩
  · intro j k hj hk
    exact h.queued j k (hsocket j hj) (hready k hk)
  · intro j k left hj hk
    obtain ⟨left', hk'⟩ := hrunning k left hk
    exact h.running j k left' (hsocket j hj) hk'
  · rw [TimeoutsKeepToTheirCalls, hlog]
    exact h.log

theorem mem_ready_of_cancel {t : Atimer Nat TimerFunc} {k : Nat}
    (h : (k, false) ∈ t.cancel.ready) : (k, false) ∈ t.ready := by
  rcases List.mem_append.mp h with hready | haborted
  · exact hready
  · obtain ⟨k', -, heq⟩ := List.mem_map.mp haborted
    cases heq

/-- **NOTHING OLD IS ARMED**: a step that is not a connect under an expiry that is pending keeps
    every armed wait a wait of the call under way. -/
theorem Current.step {s s' : Session} {a : Act} (h : Current s) (hI : SessionInv s)
    (hok : ¬ ConnectsUnderExpiry s a) (hs : Step s a s') : Current s' := by
  cases hs with
  | calls | moves =>
      exact h.mono (fun _ hj => hj) (fun _ hk => hk) (fun _ left hk => ⟨left, hk⟩) rfl
  | connects hpc =>
      have hno : ¬ ExpiryPending s := fun hp => hok ⟨hpc, rfl, hp⟩
      refine ⟨?_, ?_, h.log⟩
      · intro j k hj hk
        exact absurd (Or.inl ⟨k, hk⟩) hno
      · intro j k left hj hk
        exact absurd (Or.inr ⟨k, left, hk⟩) hno
  | connectFails hpc => exact h.mono nofun (fun _ hk => hk) (fun _ left hk => ⟨left, hk⟩) rfl
  | startsTimer ok hpc =>
      refine h.mono ?_ ?_ ?_ s.startTimer_closed
      · intro j hj
        exact s.startTimer_socket.symm.trans hj
      · intro k hk
        replace hk : (k, false) ∈ s.startTimer.timer.ready := hk
        rw [Session.startTimer] at hk
        split at hk
        · exact hk
        · exact mem_ready_of_cancel (t := (s.timer.bind .disconnect).setSingleShot true) hk
      · intro k left hk
        exact ⟨left, s.startTimer_thread.symm.trans hk⟩
  | stopsTimer ok ok' hpc =>
      refine h.mono ?_ ?_ ?_ s.stopTimer_closed
      · intro j hj
        exact s.stopTimer_socket.symm.trans hj
      · intro k hk
        replace hk : (k, false) ∈ s.stopTimer.timer.ready := hk
        rw [Session.stopTimer] at hk
        split at hk
        · exact hk
        · exact mem_ready_of_cancel hk
      · intro k left hk
        exact ⟨left, s.stopTimer_thread.symm.trans hk⟩
  | disconnects ok hpc =>
      rw [Session.disconnect_eq]
      exact h.mono nofun (fun _ hk => hk) (fun _ left hk => ⟨left, hk⟩) rfl
  | expires hw =>
      refine ⟨?_, h.running, h.log⟩
      intro j k hj hk
      rcases List.mem_append.mp hk with hready | hexpired
      · exact h.queued j k hj hready
      · -- the wait that expires was armed by the current call, whose connection is open
        obtain ⟨k', hk', heq⟩ := List.mem_map.mp hexpired
        cases heq
        exact (hI.window k hk').2.trans (hI.socket j hj).2.symm
  | takesAborted n armedBy hidle hn =>
      exact h.mono (fun _ hj => hj) (fun _ hk => List.mem_of_mem_eraseIdx hk)
        (fun _ left hk => ⟨left, hk⟩) rfl
  | takes n armedBy hidle hn =>
      refine ⟨?_, ?_, h.log⟩
      · intro j k hj hk
        exact h.queued j k hj (List.mem_of_mem_eraseIdx hk)
      · intro j k left hj hk
        injection hk with harmed
        subst harmed
        exact h.queued j armedBy hj (List.mem_of_getElem? hn)
  | closes armedBy left call hrun hsock =>
      refine ⟨nofun, nofun, ?_⟩
      intro e he
      rcases List.mem_append.mp he with hold | hnew
      · exact h.log e hold
      · rw [List.mem_singleton] at hnew
        subst hnew
        exact h.running call armedBy left hsock hrun
  | closesNothing armedBy left hrun hno =>
      exact h.mono nofun (fun _ hk => hk) (fun k left' hk => by cases hk; exact ⟨_, hrun⟩) rfl
  | ends armedBy hrun =>
      have hshot := (hI.shot armedBy (Or.inr (Or.inr ⟨0, hrun⟩))).1
      rw [Atimer.rearm_of_singleShot hshot]
      exact h.mono (fun _ hj => hj) (fun _ hk => hk) nofun rfl

/-- In every run without such a connect, what is armed belongs to the current call. -/
theorem current_of_reaches {timeoutMilli : Nat} {s : Session}
    (h : Reaches (sessionSystem timeoutMilli) (fun s a => ¬ ConnectsUnderExpiry s a) s) :
    Current s := by
  refine h.invariant_of (J := SessionInv) (fun _ hr => sessionInv_of_reaches hr) ?_ ?_
  · rintro s rfl
    exact ⟨nofun, nofun, nofun⟩
  · intro s a s' hI hC hok hs
    exact hC.step hI hok (step_cases hs)

/-! ## A pending expiry that meets the next connection -/

/-- A running handler of an earlier call closes the connection of the current one. -/
theorem running_crosses (timeoutMilli : Nat) {s : Session} {k l : Nat}
    (hsock : s.socket = .connected s.calls) (hk : k < s.calls)
    (hrun : s.timerThread = .running k (l + 1)) :
    ∃ t, Leads (sessionSystem timeoutMilli) s t ∧ ¬ TimeoutsKeepToTheirCalls t := by
  have hstep : s.step .timerCallback = some { s with
      socket := .closed
      timerThread := .running k l
      closedByTimer := s.closedByTimer ++ [(k, s.calls)] } := by
    show s.timerCallback = _
    simp only [Session.timerCallback, hrun, hsock, Session.disconnect_eq]
  refine ⟨_, Leads.one (a := .timerCallback) hstep, ?_⟩
  intro hkeep
  exact Nat.ne_of_lt hk (hkeep (k, s.calls) (List.mem_append_right _ (List.mem_singleton_self _)))

/-- A queued expiry of an earlier call is taken and then does the same. -/
theorem queued_crosses (timeoutMilli : Nat) {s : Session} (hI : SessionInv s) {k : Nat}
    (hsock : s.socket = .connected s.calls) (hk : k < s.calls)
    (hidle : s.timerThread = .idle) (hmem : (k, false) ∈ s.timer.ready) :
    ∃ t, Leads (sessionSystem timeoutMilli) s t ∧ ¬ TimeoutsKeepToTheirCalls t := by
  obtain ⟨n, hn⟩ := List.mem_iff_getElem?.mp hmem
  have hfuncs := (hI.shot k (Or.inr (Or.inl hmem))).2
  obtain ⟨left, hleft⟩ := Nat.exists_eq_succ_of_ne_zero (mt List.length_eq_zero_iff.mp hfuncs)
  have hstep : s.step (.timerTake n) = some { s with
      timer := s.timer.dequeue n
      timerThread := .running k (left + 1) } := by
    show s.timerTake n = _
    simp only [Session.timerTake, hidle, hn, Atimer.dequeue_funcVec, hleft]
    rfl
  obtain ⟨t, hlead, hcross⟩ := running_crosses timeoutMilli
    (s := { s with timer := s.timer.dequeue n, timerThread := .running k (left + 1) })
    hsock hk rfl
  exact ⟨t, hlead.cons (a := .timerTake n) hstep, hcross⟩

/-- An expiry pending as the next connection opens closes it. -/
theorem expiry_crosses {timeoutMilli : Nat} {s s' : Session} {a : Act}
    (hr : Reachable (sessionSystem timeoutMilli) s) (ha : ConnectsUnderExpiry s a)
    (hs : s.step a = some s') :
    ∃ t, Leads (sessionSystem timeoutMilli) s' t ∧ ¬ TimeoutsKeepToTheirCalls t := by
  obtain ⟨hpc, rfl, hp⟩ := ha
  have hI := sessionInv_of_reaches hr
  have hI' : SessionInv s' := hI.step (step_cases hs)
  have hconn : s' = { s with socket := .connected s.calls, pc := .pack } := by
    replace hs : s.callStep true = some s' := hs
    rw [Session.callStep, hpc] at hs
    exact (Option.some.inj hs).symm
  have hsock : s'.socket = .connected s'.calls := by rw [hconn]
  have hp' : ExpiryPending s' := by
    rw [hconn]
    exact hp
  have hpast : ∀ k, Armed s' k → k < s'.calls := by
    intro k hk
    rw [hconn] at hk ⊢
    exact (hI.past k hk).2 hpc
  cases hth : s'.timerThread with
  | idle =>
      rcases hp' with ⟨k, hk⟩ | ⟨k, left, hrun⟩
      · exact queued_crosses timeoutMilli hI' hsock (hpast k (Or.inr (Or.inl hk))) hth hk
      · rw [hth] at hrun
        exact nomatch hrun
  | running k' left' =>
      cases left' with
      | succ left' =>
          exact running_crosses timeoutMilli hsock (hpast k' (Or.inr (Or.inr ⟨_, hth⟩))) hth
      | zero =>
          rcases hp' with ⟨k, hk⟩ | ⟨k, left, hrun⟩
          · -- the handler in progress ends first
            have hshot := (hI'.shot k' (Or.inr (Or.inr ⟨0, hth⟩))).1
            have hend : s'.step .timerEnd = some { s' with timerThread := .idle } := by
              show s'.timerEnd = _
              simp only [Session.timerEnd, hth, Atimer.rearm_of_singleShot hshot]
            obtain ⟨t, hlead, hcross⟩ := queued_crosses timeoutMilli (hI'.step (step_cases hend))
              hsock (hpast k (Or.inr (Or.inl hk))) rfl hk
            exact ⟨t, hlead.cons (a := .timerEnd) hend, hcross⟩
          · rw [hth] at hrun
            exact nomatch hrun

/-- **TIMEOUTS KEEP TO THEIR CALLS** in every run in which no call connects while an expiry is
    pending; after a call that does, the run can go on so that an expiry closes the connection of
    a later call. -/
theorem timeouts_do_not_cross (timeoutMilli : Nat) :
    (∀ s, Reaches (sessionSystem timeoutMilli) (fun s a => ¬ ConnectsUnderExpiry s a) s →
      TimeoutsKeepToTheirCalls s)
    ∧ ∀ s a s', Reachable (sessionSystem timeoutMilli) s → ConnectsUnderExpiry s a →
        s.step a = some s' →
        ∃ t, Leads (sessionSystem timeoutMilli) s' t ∧ ¬ TimeoutsKeepToTheirCalls t :=
  ⟨fun _ h => (current_of_reaches h).log, fun _ _ _ hr ha hs => expiry_crosses hr ha hs⟩

/-- A successful call whose deadline passes as its response arrives, up to the next connect. -/
def lateExpiry : List Act :=
  [.call, .callStep true, .callStep true, .callStep true, .callStep true, .callStep true,
    .callStep true, .expire, .callStep true, .callStep true, .callStep true, .callStep true,
    .call]

/-- No expiry is queued, and the timer thread is idle. -/
def quiet (s : Session) : Bool := s.timer.ready.all Prod.snd && s.timerThread = .idle

/-- Where no expiry is pending, no step is such a connect. -/
theorem not_connectsUnderExpiry_of_quiet {s : Session} (h : quiet s = true) (a : Act) :
    ¬ ConnectsUnderExpiry s a := by
  obtain ⟨hready, hidle⟩ := Bool.and_eq_true_iff.mp h
  rintro ⟨-, -, ⟨k, hk⟩ | ⟨k, left, hk⟩⟩
  · cases List.all_eq_true.mp hready _ hk
  · cases (of_decide_eq_true hidle).symm.trans hk

/-- Two calls, each with its timer started and stopped in time; between them the timer thread
    takes the cancelled wait of the first. -/
def twoTimelyCalls : List Act :=
  .call :: List.replicate 10 (.callStep true) ++ .timerTake 0 :: .call
    :: List.replicate 10 (.callStep true)

/-- Timeouts keep to their calls where each call stops its timer in time; an expiry that is queued
    as the next call connects does not. -/
theorem timeouts_do_not_cross_at_3000 :
    (∃ s, exec (sessionSystem 3000) (.create 3000) twoTimelyCalls = some s
      ∧ s.calls = 2 ∧ s.pc = .idle ∧ TimeoutsKeepToTheirCalls s)
    ∧ ∃ s t, exec (sessionSystem 3000) (.create 3000) (lateExpiry ++ [.callStep true]) = some s
      ∧ Leads (sessionSystem 3000) s t ∧ ¬ TimeoutsKeepToTheirCalls t := by
  constructor
  · have hexec : exec (only (fun s _ => quiet s) (sessionSystem 3000)) (.create 3000)
        twoTimelyCalls = some _ := rfl
    have hcalls := reaches_of_only (fun _ a h => not_connectsUnderExpiry_of_quiet h a)
      (Reaches.start rfl) hexec
    exact ⟨_, rfl, rfl, rfl, (timeouts_do_not_cross 3000).1 _ hcalls⟩
  · have hstart : Reachable (sessionSystem 3000) (.create 3000) := Reachable.start rfl
    have hexec : exec (sessionSystem 3000) (.create 3000) lateExpiry = some _ := rfl
    have hr := hstart.exec hexec
    obtain ⟨t, ht⟩ := (timeouts_do_not_cross 3000).2 _ (.callStep true) _ hr
      ⟨rfl, rfl, Or.inl ⟨1, List.mem_singleton_self _⟩⟩ rfl
    exact ⟨_, t, rfl, ht⟩

/-- The expiry of call 1, queued as its response arrives, closes the connection of call 2. -/
theorem late_expiry_closes_next_connection :
    ∃ s, exec (sessionSystem 3000) (.create 3000)
        (lateExpiry ++ [.callStep true, .timerTake 0, .timerCallback]) = some s
      ∧ s.closedByTimer = [(1, 2)] ∧ ¬ TimeoutsKeepToTheirCalls s := by
  refine ⟨_, rfl, rfl, ?_⟩
  intro h
  exact nomatch h (1, 2) (List.mem_singleton_self _)

end EasyRpcSession
