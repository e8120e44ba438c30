import EasyRpc.ClientSessionProofs

/-! # The client's timer — one callback more for each call

    `start_timer` binds `disconnect` to the timer each time it starts it, and nothing ever takes a
    callback off again: the timer of a client that has read `n` responses under a timeout holds
    `n` callbacks, and an expiry runs `disconnect` as many times.

    There is at most one callback exactly as long as the timer is started once
    (`callbacks_do_not_accumulate`). -/

namespace EasyRpcClientCallbacks

open Transition EasyRpcAtimer EasyRpcSession

/-- The timer holds at most one callback, and an expiry runs `disconnect` once. -/
structure OneCallback (s : Session) : Prop where
  bound : s.timer.funcVec.length ≤ 1
  runs : ∀ n s' armedBy left, s.step (.timerTake n) = some s' →
    s'.timerThread = .running armedBy left → left = 1

/-- A call starts the timer under a timeout, with a callback bound to it already. -/
def BindsAgain (s : Session) (a : Act) : Prop :=
  BindsCallback s a ∧ s.timer.funcVec ≠ []

/-- While no call binds beside a bound callback, at most one is bound. -/
theorem bound_of_reaches {timeoutMilli : Nat} {s : Session}
    (h : Reaches (sessionSystem timeoutMilli) (fun s a => ¬ BindsAgain s a) s) :
    s.timer.funcVec.length ≤ 1 := by
  refine h.invariant (I := fun s => s.timer.funcVec.length ≤ 1) ?_ ?_
  · rintro s rfl
    exact Nat.zero_le 1
  · intro s a s' hI hok hs
    rcases timer_step (step_cases hs) with ⟨hbinds, -, hfuncs⟩ | ⟨-, -, hfuncs⟩
    · have hnone : s.timer.funcVec = [] := not_not.mp fun hne => hok ⟨hbinds, hne⟩
      rw [hfuncs, hnone]
      exact Nat.le_refl 1
    · rw [hfuncs]
      exact hI

/-- An expiry runs as many callbacks as are bound. -/
theorem runs_of_bound {s : Session} (hI : SessionInv s) (hbound : s.timer.funcVec.length ≤ 1)
    {n armedBy left : Nat} {s' : Session} (hs : s.step (.timerTake n) = some s')
    (hrun : s'.timerThread = .running armedBy left) : left = 1 := by
  cases step_cases hs with
  | takesAborted n armedBy' hidle hn =>
      rw [show s.timerThread = .running armedBy left from hrun] at hidle
      exact nomatch hidle
  | takes n armedBy' hidle hn =>
      have hne := (hI.shot armedBy' (Or.inr (Or.inl (List.mem_of_getElem? hn)))).2
      have hpos := List.length_pos_iff.mpr hne
      cases hrun
      omega

/-- No step takes a callback off the timer. -/
theorem callbacks_le_step {s s' : Session} {a : Act} (hs : s.step a = some s') :
    s.timer.funcVec.length ≤ s'.timer.funcVec.length := by
  rcases timer_step (step_cases hs) with ⟨-, -, hfuncs⟩ | ⟨-, -, hfuncs⟩
  · rw [hfuncs, List.length_append]
    exact Nat.le_add_right _ _
  · exact Nat.le_of_eq (congrArg List.length hfuncs).symm

/-- Once two are bound there are two in every later state: nothing unbinds. -/
theorem bindsAgain_accumulates {timeoutMilli : Nat} {s s' u : Session} {a : Act}
    (ha : BindsAgain s a) (hs : s.step a = some s')
    (hlead : Leads (sessionSystem timeoutMilli) s' u) : ¬ OneCallback u := by
  have htwo : 2 ≤ s'.timer.funcVec.length := by
    rcases timer_step (step_cases hs) with ⟨-, -, hfuncs⟩ | ⟨hno, -⟩
    · have hpos := List.length_pos_iff.mpr ha.2
      rw [hfuncs, List.length_append]
      exact Nat.succ_le_succ hpos
    · exact absurd ha.1 hno
  have hlater : 2 ≤ u.timer.funcVec.length := by
    refine hlead.invariant (I := fun s => 2 ≤ s.timer.funcVec.length) ?_ htwo
    intro s a s' hI hs
    exact Nat.le_trans hI (callbacks_le_step hs)
  intro hone
  exact absurd hone.bound (Nat.not_le.mpr hlater)

/-- **CALLBACKS DO NOT ACCUMULATE** in every run in which the timer is started once; from the
    second start on there are too many in every state. -/
theorem callbacks_do_not_accumulate (timeoutMilli : Nat) :
    (∀ s, Reaches (sessionSystem timeoutMilli) (fun s a => ¬ BindsAgain s a) s → OneCallback s)
    ∧ ∀ s a s' u, Reachable (sessionSystem timeoutMilli) s → BindsAgain s a →
        s.step a = some s' → Leads (sessionSystem timeoutMilli) s' u → ¬ OneCallback u := by
  constructor
  · intro s h
    have hbound := bound_of_reaches h
    exact ⟨hbound, fun _ _ _ _ hs hrun =>
      runs_of_bound (sessionInv_of_reaches h) hbound hs hrun⟩
  · intro s a s' u _ ha hs hlead
    exact bindsAgain_accumulates ha hs hlead

/-! ## A client that goes on calling -/

/-- A call that succeeds: connect, pack, write, start the timer, read the head, check it, read the
    body, stop the timer, unpack, disconnect. -/
def successfulCall : List Act := .call :: List.replicate 10 (.callStep true)

/-- A successful call adds a callback, whatever happened before it. -/
theorem successfulCall_adds {timeoutMilli : Nat} {s : Session} (hidle : s.pc = .idle)
    (htimeout : s.timeoutMilli = timeoutMilli + 1) :
    ∃ s', exec (sessionSystem (timeoutMilli + 1)) s successfulCall = some s'
      ∧ s'.pc = .idle ∧ s'.timeoutMilli = timeoutMilli + 1
      ∧ s'.timer.funcVec = s.timer.funcVec ++ [.disconnect] := by
  obtain ⟨socket, timer, timeout, pc, calls, timerThread, closedByTimer⟩ := s
  cases hidle
  cases htimeout
  exact ⟨_, rfl, rfl, rfl, rfl⟩

/-- **ONE CALLBACK PER CALL**: after `n` successful calls the timer holds `n` callbacks. -/
theorem callbacks_grow (timeoutMilli n : Nat) :
    ∃ s, Reachable (sessionSystem (timeoutMilli + 1)) s ∧ s.pc = .idle
      ∧ s.timeoutMilli = timeoutMilli + 1 ∧ s.timer.funcVec.length = n := by
  induction n with
  | zero => exact ⟨_, Reachable.start rfl, rfl, rfl, rfl⟩
  | succ n ih =>
      obtain ⟨s, hr, hidle, htimeout, hn⟩ := ih
      obtain ⟨s', hexec, hidle', htimeout', hfuncs⟩ := successfulCall_adds hidle htimeout
      refine ⟨s', hr.exec hexec, hidle', htimeout', ?_⟩
      rw [hfuncs, List.length_append, hn]
      rfl

/-- The first call binds a callback and starts the timer; the second one binds another. -/
theorem callbacks_do_not_accumulate_at_3000 :
    (∃ s, exec (sessionSystem 3000) (.create 3000) (successfulCall.take 5) = some s
      ∧ s.pc = .readHead ∧ s.timer.waiting = [1] ∧ s.timer.funcVec.length = 1 ∧ OneCallback s)
    ∧ ∃ s s', exec (sessionSystem 3000) (.create 3000)
        (successfulCall ++ [.call, .callStep true, .callStep true, .callStep true]) = some s
      ∧ s.step (.callStep true) = some s' ∧ ¬ OneCallback s' := by
  constructor
  · have hexec : exec (only (fun s _ => s.timer.funcVec.isEmpty) (sessionSystem 3000))
        (.create 3000) (successfulCall.take 5) = some _ := rfl
    have hfirst : Reaches (sessionSystem 3000) (fun s a => ¬ BindsAgain s a) _ :=
      reaches_of_only (fun _ _ h hagain => hagain.2 (List.isEmpty_iff.mp h)) (Reaches.start rfl)
        hexec
    exact ⟨_, rfl, rfl, rfl, rfl, (callbacks_do_not_accumulate 3000).1 _ hfirst⟩
  · have hstart : Reachable (sessionSystem 3000) (.create 3000) := Reachable.start rfl
    have hexec : exec (sessionSystem 3000) (.create 3000)
        (successfulCall ++ [.call, .callStep true, .callStep true, .callStep true])
          = some _ := rfl
    have hagain := (callbacks_do_not_accumulate 3000).2 _ (.callStep true) _ _ (hstart.exec hexec)
      ⟨⟨rfl, by decide, true, rfl⟩, List.cons_ne_nil _ _⟩ rfl (Leads.refl _ _)
    exact ⟨_, _, hexec, rfl, hagain⟩

/-- Two successful calls leave two callbacks. -/
theorem second_call_binds_twice :
    ∃ s, exec (sessionSystem 3000) (.create 3000) (successfulCall ++ successfulCall) = some s
      ∧ s.timer.funcVec.length = 2 ∧ ¬ OneCallback s := by
  refine ⟨_, rfl, rfl, ?_⟩
  intro hone
  exact absurd hone.bound (by decide)

end EasyRpcClientCallbacks
