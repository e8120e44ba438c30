import EasyRpc.ClientSessionProofs

/-! # Waiting under a timeout — who serves the client's timer

    `start_timer` looks at `timeout_milli_` alone.  Whether anybody will run the handler of the
    expiry is decided elsewhere: `run` creates the thread of `timer_ios_` if the timeout is set by
    then, and `stop` stops `timer_ios_` for good, since nothing resets it: the thread that a later
    `run` creates returns at once.  A second `run` without a `stop` ends the process, as it
    destroys a thread that can still be joined, and is no step here.  The setters may be called
    from other threads while a call is under way.

    A call that reads under a timeout has its expiry served, or has been disconnected, exactly as
    long as the timer is started with a thread to serve it, and nobody stops that thread, or sets
    the timeout, under a call that is reading (`timed_reads_are_covered`). -/

namespace EasyRpcClientTimeout

open Transition EasyRpcAtimer EasyRpcSession

/-- A client's threads beside its session: `client::run` starts the thread of the io_service and,
    with a timeout, the one of the timers' io_service. -/
structure Client where
  session : Session
  -- `thread_` holds a thread that has not been joined
  ran : Bool
  -- `stop` is waiting for the threads
  stopping : Bool
  -- `timer_thread_` holds a thread that has not been joined
  hasTimerThread : Bool
  timerIosStopped : Bool

/-- What the owner of the client calls, and what goes on meanwhile. -/
inductive Act where
  | timeout (timeoutMilli : Nat)
  | run
  | stop
  -- the joins of `stop` have returned
  | join
  -- a call, or the timer, goes on
  | session (a : EasyRpcSession.Act)
  deriving DecidableEq

namespace Client

/-- `client::client` with its session: no timeout, no thread. -/
def create : Client := ⟨.create 0, false, false, false, false⟩

/-- The client with its session in another state. -/
def setSession (c : Client) (s : Session) : Client := { c with session := s }

/-- `client::timeout`, which only stores the value. -/
def timeout (c : Client) (timeoutMilli : Nat) : Client :=
  c.setSession { c.session with timeoutMilli := timeoutMilli }

/-- A thread runs the handlers of `timer_ios_`. -/
def serving (c : Client) : Bool := c.hasTimerThread && !c.timerIosStopped

/-- One step of the client. A second `run` would assign to a joinable `std::thread`, so it is not
    modelled, and nothing is called while `stop` waits for the threads. -/
def step (c : Client) : Act → Option Client
  | .timeout timeoutMilli => some (c.timeout timeoutMilli)
  | .run =>
      if c.ran || c.stopping then none
      else some { c with
        ran := true
        hasTimerThread := if c.session.timeoutMilli ≠ 0 then true else c.hasTimerThread }
  | .stop =>
      if c.stopping then none
      else some { c with timerIosStopped := true, stopping := true }
  | .join =>
      match c.stopping, c.session.timerThread with
      -- the thread ends behind the handler it is in
      | true, .idle =>
          some { c with stopping := false, ran := false, hasTimerThread := false }
      | _, _ => none
  | .session (.timerTake n) =>
      if c.serving then (c.session.step (.timerTake n)).map c.setSession else none
  | .session a => (c.session.step a).map c.setSession

end Client

/-- A client as a transition system. -/
def clientSystem : System Client Act where
  start c := c = .create
  step := Client.step

/-- The calling thread is in `read` before its last read has returned. -/
def reading : Pc → Bool
  | .readHead => true
  | .checkHead => true
  | .readBody => true
  | _ => false

/-- A handler that has been begun will run `disconnect`. -/
def Closing (s : Session) : Prop := ∃ armedBy left, s.timerThread = .running armedBy (left + 1)

/-- The timer has a wait, or an expiry whose handler has not begun. -/
def Due (s : Session) : Prop := s.timer.waiting ≠ [] ∨ s.timer.Fired

/-- An expiry will run `disconnect`, or `disconnect` has run. -/
def Covered (c : Client) : Prop :=
  c.session.socket = .closed ∨ Closing c.session ∨ (c.serving = true ∧ Due c.session)

/-- A call blocked in a read under a timeout is covered. -/
def TimedReadsCovered (c : Client) : Prop :=
  c.session.pc = .readHead ∨ c.session.pc = .readBody → c.session.timeoutMilli ≠ 0 → Covered c

/-- A step after which a timed call may read with nobody to serve its expiry: the timer is started
    without a thread, the thread is stopped, or the timeout is set under a call that is not
    covered. -/
def LeavesUncovered (c : Client) : Act → Prop
  | .session (.callStep _) =>
      c.session.pc = .startTimer ∧ c.session.timeoutMilli ≠ 0 ∧ c.serving = false
        ∧ c.session.socket ≠ .closed ∧ ¬ Closing c.session
  | .stop =>
      reading c.session.pc = true ∧ c.session.timeoutMilli ≠ 0
        ∧ c.session.socket ≠ .closed ∧ ¬ Closing c.session
  | .timeout timeoutMilli =>
      timeoutMilli ≠ 0 ∧ reading c.session.pc = true ∧ ¬ Covered c
  | _ => False

/-! ## The steps -/

/-- The steps of `Client.step` as a relation. -/
inductive ClientStep (c : Client) : Act → Client → Prop where
  | sets (timeoutMilli : Nat) : ClientStep c (.timeout timeoutMilli) (c.timeout timeoutMilli)
  | runs : ClientStep c .run { c with
      ran := true
      hasTimerThread := if c.session.timeoutMilli ≠ 0 then true else c.hasTimerThread }
  | stops : ClientStep c .stop { c with timerIosStopped := true, stopping := true }
  | joins : c.stopping = true → c.session.timerThread = .idle →
      ClientStep c .join
        { c with stopping := false, ran := false, hasTimerThread := false }
  | goes (a : EasyRpcSession.Act) (s : Session) : Step c.session a s →
      ClientStep c (.session a) (c.setSession s)

/-- Every step of the client is one of the relation's. -/
theorem clientStep_cases {c c' : Client} {a : Act} (h : c.step a = some c') :
    ClientStep c a c' := by
  unfold Client.step at h
  split at h
  · cases h
    exact .sets _
  · obtain ⟨-, h⟩ := Option.ite_none_left_eq_some.mp h
    cases h
    exact .runs
  · obtain ⟨-, h⟩ := Option.ite_none_left_eq_some.mp h
    cases h
    exact .stops
  · split at h
    · rename_i hstopping hidle
      cases h
      exact .joins hstopping hidle
    · exact nomatch h
  · obtain ⟨-, h⟩ := Option.ite_none_right_eq_some.mp h
    obtain ⟨s, hs, rfl⟩ := Option.map_eq_some_iff.mp h
    exact .goes _ s (step_cases hs)
  · obtain ⟨s, hs, rfl⟩ := Option.map_eq_some_iff.mp h
    exact .goes _ s (step_cases hs)

/-! ## Covered reads stay covered -/

/-- While a call reads, what is due is taken, run or kept. -/
theorem covered_goes {c : Client} {a : EasyRpcSession.Act} {s : Session} (hshot : Shot c.session)
    (h : Covered c) (hs : Step c.session a s) (hreading : reading c.session.pc = true) :
    Covered (c.setSession s) := by
  have hpc : ∀ pc, c.session.pc = pc → reading pc = true := by
    rintro pc rfl
    exact hreading
  cases hs with
  | calls h' | connects h' | connectFails h' | startsTimer _ h' | stopsTimer _ _ h'
  | disconnects _ h' => exact nomatch hpc _ h'
  | moves ok pc hm => exact h
  | expires hw =>
      refine h.imp_right fun h => h.imp_right ?_
      rintro ⟨hserving, -⟩
      obtain ⟨k, hk⟩ := List.exists_mem_of_ne_nil _ hw
      exact ⟨hserving, Or.inr ⟨k, List.mem_append_right _ (List.mem_map_of_mem hk)⟩⟩
  | takesAborted n armedBy hidle hn =>
      refine h.imp_right fun h => h.imp_right ?_
      rintro ⟨hserving, hdue⟩
      exact ⟨hserving, hdue.imp_right (Atimer.fired_dequeue_aborted hn).mpr⟩
  | takes n armedBy hidle hn =>
      have hfuncs := (hshot armedBy (Or.inr (Or.inl (List.mem_of_getElem? hn)))).2
      obtain ⟨left, hleft⟩ := Nat.exists_eq_succ_of_ne_zero (mt List.length_eq_zero_iff.mp hfuncs)
      exact Or.inr (Or.inl ⟨armedBy, left, congrArg (TimerThread.running armedBy) hleft⟩)
  | closes | closesNothing => exact Or.inl rfl
  | ends armedBy hrun =>
      have hsingle := (hshot armedBy (Or.inr (Or.inr ⟨0, hrun⟩))).1
      rw [Atimer.rearm_of_singleShot hsingle]
      rcases h with hclosed | ⟨armedBy', left, hclosing⟩ | hserved
      · exact Or.inl hclosed
      · rw [hrun] at hclosing
        exact nomatch hclosing
      · exact Or.inr (Or.inr hserved)

/-- What holds in every run in which no step leaves a timed call uncovered. -/
structure Guarded (c : Client) : Prop where
  shot : Shot c.session
  stopping : c.stopping = true → c.timerIosStopped = true
  covered : reading c.session.pc = true → c.session.timeoutMilli ≠ 0 → Covered c

theorem timeoutMilli_step {s s' : Session} {a : EasyRpcSession.Act} (hs : Step s a s') :
    s'.timeoutMilli = s.timeoutMilli := by
  cases hs with
  | startsTimer ok hpc =>
      show s.startTimer.timeoutMilli = _
      rw [Session.startTimer_eq]
  | stopsTimer ok ok' hpc =>
      show s.stopTimer.timeoutMilli = _
      rw [Session.stopTimer_eq]
  | disconnects ok hpc =>
      rw [Session.disconnect_eq]
      rfl
  | calls | connects | connectFails | moves | expires | takesAborted | takes | closes
  | closesNothing | ends => rfl

/-- A call comes to read by starting the timer. -/
theorem reading_step {s s' : Session} {a : EasyRpcSession.Act} (hs : Step s a s')
    (h : reading s'.pc = true) :
    reading s.pc = true ∨ (s.pc = .startTimer ∧ (∃ ok, a = .callStep ok)
      ∧ s' = s.startTimer.setPc .readHead) := by
  cases hs with
  | startsTimer ok hpc => exact Or.inr ⟨hpc, ⟨ok, rfl⟩, rfl⟩
  | moves ok pc hm =>
      left
      generalize s.pc = pc' at hm
      replace h : reading pc = true := h
      cases hm with
      | packs | packFails | writes | writeFails | readHeadFails | checkHeadFails | readsBody
      | unpacks => exact nomatch h
      | readsHead | checksHead => rfl
  | stopsTimer ok ok' =>
      cases ok' with
      | true | false => exact nomatch h
  | calls | connects | connectFails | disconnects => exact nomatch h
  | expires | takesAborted | takes | closes | closesNothing | ends => exact Or.inl h

/-- A step of the session keeps the timed reads covered unless it starts one uncovered. -/
theorem Guarded.goes {c : Client} {a : EasyRpcSession.Act} {s : Session} (h : Guarded c)
    (hok : ¬ LeavesUncovered c (.session a)) (hs : Step c.session a s) :
    Guarded (c.setSession s) := by
  refine ⟨h.shot.step hs, h.stopping, ?_⟩
  intro hreading htimeout
  replace htimeout : c.session.timeoutMilli ≠ 0 := timeoutMilli_step hs ▸ htimeout
  rcases reading_step hs hreading with hold | ⟨hpc, ⟨ok, rfl⟩, rfl⟩
  · exact covered_goes h.shot (h.covered hold htimeout) hs hold
  · -- the wait that the call has just registered
    by_cases hserving : c.serving = true
    · refine Or.inr (Or.inr ⟨hserving, Or.inl ?_⟩)
      show c.session.startTimer.timer.waiting ≠ []
      rw [startTimer_of_ne_zero htimeout]
      exact List.cons_ne_nil _ _
    · by_cases hclosed : c.session.socket = .closed
      · exact Or.inl (c.session.startTimer_socket.trans hclosed)
      · by_cases hclosing : Closing c.session
        · obtain ⟨armedBy, left, hrun⟩ := hclosing
          exact Or.inr (Or.inl ⟨armedBy, left, c.session.startTimer_thread.trans hrun⟩)
        · exact absurd ⟨hpc, htimeout, Bool.eq_false_iff.mpr hserving, hclosed, hclosing⟩ hok

/-- **THE STEP LEMMA**: no step but the ones that leave a read uncovered breaks the covering, one
    case per step of the client. -/
theorem Guarded.step {c c' : Client} {a : Act} (h : Guarded c) (hok : ¬ LeavesUncovered c a)
    (hs : ClientStep c a c') : Guarded c' := by
  cases hs with
  | sets timeoutMilli =>
      refine ⟨h.shot, h.stopping, ?_⟩
      intro hreading htimeout
      by_cases hcovered : Covered c
      · exact hcovered
      · exact absurd ⟨htimeout, hreading, hcovered⟩ hok
  | runs =>
      refine ⟨h.shot, h.stopping, ?_⟩
      intro hreading htimeout
      refine (h.covered hreading htimeout).imp_right fun hc => hc.imp_right ?_
      rintro ⟨hserving, hdue⟩
      refine ⟨?_, hdue⟩
      rw [Client.serving, Bool.and_eq_true] at hserving ⊢
      exact ⟨if_pos htimeout, hserving.2⟩
  | stops =>
      refine ⟨h.shot, fun _ => rfl, ?_⟩
      intro hreading htimeout
      by_cases hclosed : c.session.socket = .closed
      · exact Or.inl hclosed
      · by_cases hclosing : Closing c.session
        · exact Or.inr (Or.inl hclosing)
        · exact absurd ⟨hreading, htimeout, hclosed, hclosing⟩ hok
  | joins hstopping hidle =>
      refine ⟨h.shot, nofun, ?_⟩
      intro hreading htimeout
      rcases h.covered hreading htimeout with hclosed | hclosing | ⟨hserving, -⟩
      · exact Or.inl hclosed
      · exact Or.inr (Or.inl hclosing)
      · rw [Client.serving, h.stopping hstopping, Bool.not_true, Bool.and_false] at hserving
        exact nomatch hserving
  | goes a s hs => exact h.goes hok hs

/-- In every run without such a step, every timed read is covered. -/
theorem guarded_of_reaches {c : Client}
    (h : Reaches clientSystem (fun c a => ¬ LeavesUncovered c a) c) : Guarded c := by
  refine h.invariant ?_ ?_
  · rintro c rfl
    refine ⟨?_, nofun, nofun⟩
    rintro k (hk | hk | ⟨left, hk⟩) <;> exact nomatch hk
  · intro c a c' hI hok hs
    exact hI.step hok (clientStep_cases hs)

/-! ## A step that leaves a call uncovered -/

/-- A call that is reading can come to be blocked in a read. -/
theorem uncovered_blocks {c : Client} (hreading : reading c.session.pc = true)
    (htimeout : c.session.timeoutMilli ≠ 0) (hno : ¬ Covered c) :
    ∃ t, Leads clientSystem c t ∧ ¬ TimedReadsCovered t := by
  cases hpc : c.session.pc with
  | readHead =>
      exact ⟨c, Leads.refl _ c, fun h => hno (h (Or.inl hpc) htimeout)⟩
  | readBody =>
      exact ⟨c, Leads.refl _ c, fun h => hno (h (Or.inr hpc) htimeout)⟩
  | checkHead =>
      have hstep : c.step (.session (.callStep true))
          = some (c.setSession (c.session.setPc .readBody)) := by
        show (c.session.callStep true).map c.setSession = _
        rw [Session.callStep, hpc]
        rfl
      exact ⟨_, Leads.one (a := .session (.callStep true)) hstep,
        fun h => hno (h (Or.inr rfl) htimeout)⟩
  | idle | connect | pack | write | startTimer | stopTimer | unpack | disconnect =>
      rw [hpc] at hreading
      cases hreading

/-- **AND EACH SUCH STEP MATTERS**: after it the client can come to a state in which a timed read
    stands uncovered. -/
theorem leavesUncovered_blocks {c c' : Client} {a : Act} (ha : LeavesUncovered c a)
    (hs : c.step a = some c') : ∃ t, Leads clientSystem c' t ∧ ¬ TimedReadsCovered t := by
  cases clientStep_cases hs with
  | sets timeoutMilli =>
      obtain ⟨htimeout, hreading, hno⟩ := ha
      exact uncovered_blocks hreading htimeout hno
  | stops =>
      obtain ⟨hreading, htimeout, hopen, hclosing⟩ := ha
      refine uncovered_blocks hreading htimeout ?_
      rintro (hclosed | hc | ⟨hserving, -⟩)
      · exact hopen hclosed
      · exact hclosing hc
      · rw [Client.serving, Bool.not_true, Bool.and_false] at hserving
        exact nomatch hserving
  | runs | joins => exact ha.elim
  | goes b s hb =>
      cases b with
      | callStep ok =>
          obtain ⟨hpc, htimeout, hserving, hopen, hclosing⟩ := ha
          have hstart : s = c.session.startTimer.setPc .readHead := by
            cases hb with
            | startsTimer => rfl
            | connects hpc' | connectFails hpc' | stopsTimer _ _ hpc' | disconnects _ hpc' =>
                rw [hpc] at hpc'
                exact nomatch hpc'
            | moves ok pc hm =>
                rw [hpc] at hm
                exact nomatch hm
          subst hstart
          refine uncovered_blocks rfl (timeoutMilli_step hb ▸ htimeout) ?_
          rintro (hclosed | ⟨armedBy, left, hrun⟩ | ⟨hyes, -⟩)
          · exact hopen (c.session.startTimer_socket.symm.trans hclosed)
          · exact hclosing ⟨armedBy, left, c.session.startTimer_thread.symm.trans hrun⟩
          · rw [show c.serving = true from hyes] at hserving
            exact nomatch hserving
      | call | expire | timerTake | timerCallback | timerEnd => exact ha.elim

/-- **TIMED READS ARE COVERED** in every run in which no step leaves a timed call uncovered; after
    one that does, the run can go on to a read that no expiry will end. -/
theorem timed_reads_are_covered (c : Client) :
    (Reaches clientSystem (fun c a => ¬ LeavesUncovered c a) c → TimedReadsCovered c)
    ∧ ∀ a c', Reachable clientSystem c → LeavesUncovered c a → c.step a = some c' →
        ∃ t, Leads clientSystem c' t ∧ ¬ TimedReadsCovered t := by
  constructor
  · intro h hpc htimeout
    refine (guarded_of_reaches h).covered ?_ htimeout
    rcases hpc with hpc | hpc <;> rw [hpc] <;> rfl
  · intro a c' _ ha hs
    exact leavesUncovered_blocks ha hs

/-- A call up to the start of its timer. -/
def untilTimer : List Act :=
  [.session .call, .session (.callStep true), .session (.callStep true),
    .session (.callStep true)]

/-- A call waits for its response under a timer that a thread serves; where the client has run
    before its timeout was set, nobody serves it. -/
theorem timed_reads_are_covered_at_3000 :
    (∃ c, exec clientSystem .create
        ([.timeout 3000, .run] ++ untilTimer ++ [.session (.callStep true)]) = some c
      ∧ c.session.pc = .readHead ∧ c.session.timeoutMilli = 3000 ∧ c.serving = true
      ∧ TimedReadsCovered c)
    ∧ ∃ c c' t, exec clientSystem .create ([.run, .timeout 3000] ++ untilTimer) = some c
      ∧ c.step (.session (.callStep true)) = some c'
      ∧ Leads clientSystem c' t ∧ ¬ TimedReadsCovered t := by
  constructor
  · have hstart : Reaches clientSystem (fun c a => ¬ LeavesUncovered c a) .create :=
      Reaches.start rfl
    have hset := hstart.step (a := Act.timeout 3000) (fun h => nomatch h.2.1) rfl
    have hrun := hset.step (a := Act.run) id rfl
    have hcall := hrun.step (a := Act.session .call) id rfl
    have hconn := hcall.step (a := Act.session (.callStep true)) (fun h => nomatch h.1) rfl
    have hpack := hconn.step (a := Act.session (.callStep true)) (fun h => nomatch h.1) rfl
    have hwrite := hpack.step (a := Act.session (.callStep true)) (fun h => nomatch h.1) rfl
    have htimer := hwrite.step (a := Act.session (.callStep true))
      (fun h => nomatch h.2.2.1) rfl
    exact ⟨_, rfl, rfl, rfl, rfl, (timed_reads_are_covered _).1 htimer⟩
  · have hstart : Reachable clientSystem .create := Reachable.start rfl
    have hexec : exec clientSystem .create ([.run, .timeout 3000] ++ untilTimer) = some _ := rfl
    obtain ⟨t, ht⟩ := (timed_reads_are_covered _).2 (.session (.callStep true)) _
      (hstart.exec hexec) ⟨rfl, by decide, rfl, nofun, nofun⟩ rfl
    exact ⟨_, _, t, hexec, rfl, ht⟩

/-- The client runs before its timeout is set: the call waits for the response with its timer
    armed and no thread to serve it. -/
theorem run_before_timeout_waits_uncovered :
    ∃ c, exec clientSystem .create
        ([.run, .timeout 3000] ++ untilTimer ++ [.session (.callStep true)]) = some c
      ∧ c.session.pc = .readHead ∧ c.hasTimerThread = false ∧ ¬ TimedReadsCovered c := by
  refine ⟨_, rfl, rfl, rfl, ?_⟩
  intro h
  rcases h (Or.inl rfl) (by decide) with hclosed | ⟨armedBy, left, hrun⟩ | ⟨hserving, -⟩
  · exact nomatch hclosed
  · exact nomatch hrun
  · exact nomatch hserving

end EasyRpcClientTimeout
