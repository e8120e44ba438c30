import EasyRpc.PotentialProofs
import EasyRpc.TimerSilenceProofs

/-! # A started timer — which period it keeps

    The closure of a wait carries the duration that it was started with, and a handler of a
    repeating timer starts the timer again with the duration of its own wait.  `start` aborts what
    waits on the timer, but neither a queued expiry nor a handler that is running.

    So a timer that is started when nothing of it is queued or running has one expiry to come at
    any time, with the new duration: over and over, or once and then never again.  Started when
    something is, a repeating timer may go back to the old duration (`start_sets_the_period`). -/

namespace EasyRpcTimerPeriod

open Transition Potential EasyRpcAtimer EasyRpcTimerSilence

variable {F : Type}

/-- `start`, from outside or out of a bound function. -/
def started (s : Scene F) (duration : Nat) : Scene F :=
  { s with timer := s.timer.start duration, events := .started :: s.events }

/-- The steps of a timer that the user neither starts nor stops nor sets to another mode. -/
def untouched (_ : Scene F) : Act F → Bool
  | .setSingleShot _ => false
  | .start _ => false
  | .stop => false
  | _ => true

/-- The durations of the queued expiries. -/
def fired (ready : List (Nat × Bool)) : List Nat :=
  ready.filterMap fun w => if w.2 then none else some w.1

/-- The duration that the handler under way would start again. -/
def handled : Handling → List Nat
  | .idle => []
  | .running duration _ => [duration]

/-- The expiries that `start` does not abort. -/
def leftOver (s : Scene F) : List Nat := fired s.timer.ready ++ handled s.handling

/-- The expiries to come, queued or being handled, by their durations. -/
def expiries (s : Scene F) : List Nat := s.timer.waiting ++ leftOver s

/-- What a timer of duration `duration` is doing `t` after it was started in `s`: it has one expiry
    at any time, or has had one, and its handlers have begun for these. -/
def Ticks (duration : Nat) (s t : Scene F) : Prop :=
  if s.timer.isSingleShot then
    (expiries t = [duration]
      ∧ t.events.count .begins = s.events.count .begins + (handled t.handling).length)
    ∨ (expiries t = [] ∧ t.events.count .begins = s.events.count .begins + 1)
  else
    expiries t = [duration]
    ∧ t.events.count .begins + s.events.count .rearms
      = s.events.count .begins + t.events.count .rearms + (handled t.handling).length

/-! ## Queued expiries -/

section Fired

variable {ready : List (Nat × Bool)} {n duration : Nat}

/-- Handlers with success are collected in the order of the queue. -/
theorem fired_append (ready ready' : List (Nat × Bool)) :
    fired (ready ++ ready') = fired ready ++ fired ready' :=
  List.filterMap_append

theorem fired_aborted (waiting : List Nat) :
    fired (waiting.map fun duration => (duration, true)) = [] := by
  rw [fired, List.filterMap_map]
  exact List.filterMap_eq_nil_iff.mpr fun _ _ => rfl

theorem fired_expired (waiting : List Nat) :
    fired (waiting.map fun duration => (duration, false)) = waiting := by
  rw [fired, List.filterMap_map]
  exact List.filterMap_some

/-- A queue around one of its handlers. -/
theorem ready_split {w : Nat × Bool} (hn : ready[n]? = some w) :
    ready = ready.take n ++ w :: ready.drop (n + 1)
      ∧ ready.eraseIdx n = ready.take n ++ ready.drop (n + 1) := by
  obtain ⟨hlt, hw⟩ := List.getElem?_eq_some_iff.mp hn
  refine ⟨?_, List.eraseIdx_eq_take_drop_succ ..⟩
  rw [← hw, List.getElem_cons_drop, List.take_append_drop]

theorem fired_erase_aborted (hn : ready[n]? = some (duration, true)) :
    fired (ready.eraseIdx n) = fired ready := by
  obtain ⟨hready, herase⟩ := ready_split hn
  rw [herase, congrArg fired hready, fired_append, fired_append]
  rfl

/-- The only expiry of a queue is taken. -/
theorem fired_erase {only : Nat} (hn : ready[n]? = some (duration, false))
    (hone : fired ready = [only]) : duration = only ∧ fired (ready.eraseIdx n) = [] := by
  obtain ⟨hready, herase⟩ := ready_split hn
  have hsplit : fired (ready.take n) ++ duration :: fired (ready.drop (n + 1)) = [only] := by
    rw [← hone]
    conv_rhs => rw [hready, fired_append]
    rfl
  rw [herase, fired_append]
  rcases List.append_eq_singleton_iff.mp hsplit with ⟨hbefore, hrest⟩ | ⟨-, hnil⟩
  · obtain ⟨heq, hafter⟩ := List.cons.inj hrest
    exact ⟨heq, by rw [hbefore, hafter]; rfl⟩
  · cases hnil

theorem mem_fired : duration ∈ fired ready ↔ (duration, false) ∈ ready := by
  rw [fired, List.mem_filterMap]
  constructor
  · rintro ⟨⟨duration', aborted⟩, hmem, hw⟩
    cases aborted with
    | true => cases hw
    | false =>
        cases hw
        exact hmem
  · exact fun hmem => ⟨_, hmem, rfl⟩

end Fired

/-! ## One step of an untouched timer -/

/-- What a timer does with its one expiry. -/
inductive Ticked (duration : Nat) (t t' : Scene F) : Prop where
  | keeps (hone : expiries t' = [duration]) (hevents : t'.events = t.events)
      (hhandled : handled t'.handling = handled t.handling)
  | begins (hone : expiries t' = [duration]) (hevents : t'.events = .begins :: t.events)
      (hidle : handled t.handling = []) (hhandled : handled t'.handling = [duration])
  | ends (hshot : t.timer.isSingleShot = true) (hnone : expiries t' = [])
      (hevents : t'.events = t.events) (hhandled : handled t.handling = [duration])
  | rearms (hshot : t.timer.isSingleShot = false) (hone : expiries t' = [duration])
      (hevents : t'.events = .rearms :: t.events) (hhandled : handled t.handling = [duration])
      (hidle : handled t'.handling = [])

section Steps

variable {s t t' : Scene F} {a : Act F} {duration : Nat}

/-- A handler that is running has the only expiry. -/
theorem alone_of_running (hone : expiries t = [duration]) {duration' left : Nat}
    (hrun : t.handling = .running duration' left) :
    t.timer.waiting = [] ∧ fired t.timer.ready = [] ∧ duration' = duration := by
  have hlast : (t.timer.waiting ++ fired t.timer.ready) ++ [duration'] = [] ++ [duration] := by
    rw [List.append_assoc, List.nil_append, ← hone, expiries, leftOver, hrun]
    rfl
  obtain ⟨hnil, heq⟩ := List.append_inj' hlast rfl
  obtain ⟨hwaiting, hfired⟩ := List.append_eq_nil_iff.mp hnil
  exact ⟨hwaiting, hfired, (List.cons.inj heq).1⟩

/-- A wait on the timer is the only expiry. -/
theorem alone_of_waiting (hone : expiries t = [duration]) (hw : t.timer.waiting ≠ []) :
    t.timer.waiting = [duration] ∧ leftOver t = [] := by
  rcases List.append_eq_singleton_iff.mp hone with ⟨hnil, -⟩ | hwaiting
  · exact absurd hnil hw
  · exact hwaiting

/-- An expiry that is queued is the only one. -/
theorem alone_of_fired (hone : expiries t = [duration]) {duration' : Nat}
    (hmem : duration' ∈ fired t.timer.ready) :
    t.timer.waiting = [] ∧ fired t.timer.ready = [duration] ∧ handled t.handling = [] := by
  have hne : fired t.timer.ready ≠ [] := List.ne_nil_of_mem hmem
  rcases List.append_eq_singleton_iff.mp hone with ⟨hwaiting, hleft⟩ | ⟨-, hleft⟩
  · rcases List.append_eq_singleton_iff.mp hleft with ⟨hnil, -⟩ | ⟨hfired, hhandled⟩
    · exact absurd hnil hne
    · exact ⟨hwaiting, hfired, hhandled⟩
  · exact absurd (List.append_eq_nil_iff.mp hleft).1 hne

/-- A step nobody disturbs keeps the one duration, or is one more period over. -/
theorem ticked_of_step (hone : expiries t = [duration]) (ha : untouched t a = true)
    (hs : Step t a t') : Ticked duration t t' := by
  cases hs with
  | sets | starts | stops => cases ha
  | binds func => exact .keeps hone rfl rfl
  | expires hw =>
      obtain ⟨hwaiting, hleft⟩ := alone_of_waiting hone hw
      obtain ⟨hfired, hhandled⟩ := List.append_eq_nil_iff.mp hleft
      refine .keeps ?_ rfl rfl
      show fired (t.timer.ready ++ t.timer.waiting.map fun w => (w, false)) ++ handled t.handling
        = [duration]
      rw [fired_append, fired_expired, hfired, hhandled, hwaiting]
      rfl
  | takesAborted n duration' hidle hn =>
      refine .keeps ?_ rfl rfl
      rw [← hone, expiries, expiries, leftOver, leftOver, ← fired_erase_aborted hn]
      rfl
  | takes n duration' hidle hn =>
      have hmem := mem_fired.mpr (List.mem_of_getElem? hn)
      obtain ⟨hwaiting, hfired, hhandled⟩ := alone_of_fired hone hmem
      obtain ⟨rfl, hnone⟩ := fired_erase hn hfired
      refine .begins ?_ rfl hhandled rfl
      show t.timer.waiting ++ (fired (t.timer.ready.eraseIdx n) ++ [duration']) = [duration']
      rw [hwaiting, hnone]
      rfl
  | calls duration' left hrun =>
      have hhandled : handled (.running duration' left) = handled t.handling := by
        rw [hrun]
        rfl
      refine .keeps ?_ rfl hhandled
      rw [← hone, expiries, expiries, leftOver, leftOver, ← hhandled]
  | ends duration' hrun hshot =>
      obtain ⟨hwaiting, hfired, rfl⟩ := alone_of_running hone hrun
      refine .ends hshot ?_ rfl (by rw [hrun]; rfl)
      show t.timer.waiting ++ (fired t.timer.ready ++ []) = []
      rw [hwaiting, hfired]
      rfl
  | rearms duration' hrun hshot =>
      obtain ⟨hwaiting, hfired, rfl⟩ := alone_of_running hone hrun
      refine .rearms hshot ?_ rfl (by rw [hrun]; rfl) rfl
      show [duration'] ++ (fired (t.timer.ready ++ t.timer.waiting.map fun w => (w, true)) ++ [])
        = [duration']
      rw [fired_append, fired_aborted, hfired]
      rfl

/-- A timer with nothing to come does nothing. -/
theorem spent_of_step (hnone : expiries t = []) (ha : untouched t a = true) (hs : Step t a t') :
    expiries t' = [] ∧ t'.events = t.events := by
  obtain ⟨hwaiting, hleft⟩ := List.append_eq_nil_iff.mp hnone
  obtain ⟨hfired, hhandled⟩ := List.append_eq_nil_iff.mp hleft
  have hidle : ∀ duration' left, t.handling ≠ .running duration' left := by
    intro duration' left hrun
    rw [hrun] at hhandled
    cases hhandled
  cases hs with
  | sets | starts | stops => cases ha
  | binds func => exact ⟨hnone, rfl⟩
  | expires hw => exact absurd hwaiting hw
  | takesAborted n duration' _ hn =>
      refine ⟨?_, rfl⟩
      rw [← hnone, expiries, expiries, leftOver, leftOver, ← fired_erase_aborted hn]
      rfl
  | takes n duration' _ hn =>
      have hmem := mem_fired.mpr (List.mem_of_getElem? hn)
      rw [hfired] at hmem
      cases hmem
  | calls duration' left hrun => exact absurd hrun (hidle _ _)
  | ends duration' hrun => exact absurd hrun (hidle _ _)
  | rearms duration' hrun => exact absurd hrun (hidle _ _)

theorem mode_of_step (ha : untouched t a = true) (hs : Step t a t') :
    t'.timer.isSingleShot = t.timer.isSingleShot := by
  cases hs with
  | sets | starts | stops => cases ha
  | binds | expires | takesAborted | takes | calls | ends | rearms => rfl

/-- **STEP**: an untouched timer keeps ticking, or has had its one expiry. -/
theorem Ticks.step (h : Ticks duration s t) (hmode : t.timer.isSingleShot = s.timer.isSingleShot)
    (ha : untouched t a = true) (hs : Step t a t') : Ticks duration s t' := by
  have hbegins : ∀ events : List Event, (Event.begins :: events).count .begins
      = events.count .begins + 1 := fun _ => List.count_cons_self
  have hother : ∀ events : List Event, (Event.begins :: events).count .rearms
      = events.count .rearms := fun _ => List.count_cons_of_ne (by decide)
  have hrearms : ∀ events : List Event, (Event.rearms :: events).count .rearms
      = events.count .rearms + 1 := fun _ => List.count_cons_self
  have hanother : ∀ events : List Event, (Event.rearms :: events).count .begins
      = events.count .begins := fun _ => List.count_cons_of_ne (by decide)
  unfold Ticks at h ⊢
  cases hshot : s.timer.isSingleShot with
  | true =>
      rw [hshot, if_pos rfl] at h
      rw [if_pos rfl]
      rcases h with ⟨hone, hcount⟩ | ⟨hnone, hcount⟩
      · cases ticked_of_step hone ha hs with
        | keeps hone' hevents hhandled =>
            rw [hevents, hhandled]
            exact Or.inl ⟨hone', hcount⟩
        | begins hone' hevents hidle hhandled =>
            rw [hidle] at hcount
            rw [hevents, hhandled, hbegins, hcount]
            exact Or.inl ⟨hone', rfl⟩
        | ends _ hnone hevents hhandled =>
            rw [hhandled] at hcount
            rw [hevents, hcount]
            exact Or.inr ⟨hnone, rfl⟩
        | rearms hrepeats =>
            rw [hmode, hshot] at hrepeats
            cases hrepeats
      · obtain ⟨hnone', hevents⟩ := spent_of_step hnone ha hs
        rw [hevents]
        exact Or.inr ⟨hnone', hcount⟩
  | false =>
      rw [hshot, if_neg Bool.false_ne_true] at h
      rw [if_neg Bool.false_ne_true]
      obtain ⟨hone, hcount⟩ := h
      cases ticked_of_step hone ha hs with
      | keeps hone' hevents hhandled =>
          rw [hevents, hhandled]
          exact ⟨hone', hcount⟩
      | begins hone' hevents hidle hhandled =>
          rw [hidle] at hcount
          refine ⟨hone', ?_⟩
          rw [hevents, hhandled, hbegins, hother, List.length_singleton]
          rw [List.length_nil] at hcount
          omega
      | ends hshot' =>
          rw [hmode, hshot] at hshot'
          cases hshot'
      | rearms _ hone' hevents hhandled hidle =>
          rw [hhandled, List.length_singleton] at hcount
          refine ⟨hone', ?_⟩
          rw [hevents, hidle, hrearms, hanother, List.length_nil]
          omega

end Steps

/-! ## Runs of an untouched timer -/

/-- The steps that a timer takes by itself. -/
def proceeds (_ : Scene F) : Act F → Bool
  | .expire => true
  | .take _ => true
  | .callback => true
  | .finish => true
  | _ => false

section Runs

variable {s t : Scene F} {duration : Nat}

/-- A timer with an expiry to come is not at rest. -/
theorem goes_on (hsome : expiries t ≠ []) : ¬ Rests proceeds sceneSystem t := by
  intro h
  obtain ⟨timer, handling, events⟩ := t
  cases handling with
  | running duration left =>
      cases left with
      | zero => cases h .finish rfl
      | succ left => cases h .callback rfl
  | idle =>
      by_cases hw : timer.waiting = []
      · have hfired : fired timer.ready ≠ [] := by
          intro hnil
          refine hsome ?_
          show timer.waiting ++ (fired timer.ready ++ []) = []
          rw [hw, hnil]
          rfl
        obtain ⟨duration, hmem⟩ := List.exists_mem_of_ne_nil _ hfired
        obtain ⟨n, hn⟩ := List.mem_iff_getElem?.mp (mem_fired.mp hmem)
        have htake : Scene.take ⟨timer, .idle, events⟩ n = none := h (.take n) rfl
        simp only [Scene.take, hn] at htake
        cases htake
      · have hexpire : (if timer.waiting ≠ [] then
            some (⟨timer.expire, .idle, events⟩ : Scene F) else none) = none := h .expire rfl
        rw [if_pos hw] at hexpire
        cases hexpire

/-- **THE RUN LEMMA**: undisturbed after a start, every tick comes after the duration that was
    started. -/
theorem ticks_of_leads (hnone : leftOver s = [])
    (h : Leads (only untouched sceneSystem) (started s duration) t) : Ticks duration s t := by
  obtain ⟨hfired, hhandled⟩ := List.append_eq_nil_iff.mp hnone
  have hstart : Ticks duration s (started s duration) := by
    have hone : expiries (started s duration) = [duration] := by
      show [duration] ++ (fired (s.timer.ready ++ s.timer.waiting.map fun w => (w, true))
        ++ handled s.handling) = [duration]
      rw [fired_append, fired_aborted, hfired, hhandled]
      rfl
    have hlen : (handled (started s duration).handling).length = 0 :=
      List.length_eq_zero_iff.mpr hhandled
    have hcount : ∀ e, e ≠ Event.started →
        (started s duration).events.count e = s.events.count e :=
      fun e he => List.count_cons_of_ne he.symm
    unfold Ticks
    rw [hone, hlen, hcount .begins nofun, hcount .rearms nofun]
    split
    · exact Or.inl ⟨rfl, rfl⟩
    · exact ⟨rfl, rfl⟩
  refine (h.invariant (I := fun t => Ticks duration s t
    ∧ t.timer.isSingleShot = s.timer.isSingleShot) ?_ ⟨hstart, rfl⟩).1
  rintro t a t' ⟨hticks, hmode⟩ hs
  obtain ⟨ha, hs⟩ := step_only.mp hs
  have hstep := step_cases hs
  exact ⟨hticks.step hmode ha hstep, (mode_of_step ha hstep).trans hmode⟩

/-- A handler of a repeating timer starts it again with its own duration. -/
theorem leads_to_rearm (timer : Atimer Nat F) (hrepeats : timer.isSingleShot = false)
    (events : List Event) (duration left : Nat) :
    Leads (only untouched sceneSystem) ⟨timer, .running duration left, events⟩
      ⟨timer.start duration, .idle, .rearms :: events⟩ := by
  induction left with
  | zero =>
      refine Leads.one (a := .finish) (step_only.mpr ⟨rfl, ?_⟩)
      show some (⟨timer.rearm duration, .idle,
        if timer.isSingleShot then events else .rearms :: events⟩ : Scene F) = _
      rw [Atimer.rearm, hrepeats]
      rfl
  | succ left ih => exact ih.cons (a := .callback) (step_only.mpr ⟨rfl, rfl⟩)

/-- A queued expiry of a repeating timer is handled, and starts it again. -/
theorem leads_from_fired (timer : Atimer Nat F) (hrepeats : timer.isSingleShot = false)
    (events : List Event) {old : Nat} (hmem : old ∈ fired timer.ready) :
    ∃ t, Leads (only untouched sceneSystem) ⟨timer, .idle, events⟩ t
      ∧ t.timer.waiting = [old] := by
  obtain ⟨n, hn⟩ := List.mem_iff_getElem?.mp (mem_fired.mp hmem)
  have htake : Scene.take ⟨timer, .idle, events⟩ n
      = some ⟨timer.dequeue n, .running old timer.funcVec.length, .begins :: events⟩ := by
    simp only [Scene.take, hn]
    rfl
  exact ⟨_, Leads.cons (a := .take n) (step_only.mpr ⟨rfl, htake⟩)
    (leads_to_rearm (timer.dequeue n) hrepeats _ _ _), rfl⟩

/-- **WHAT IS LEFT OVER WINS**: a repeating timer may go back to the duration of an expiry that
    was queued or being handled when it was started. -/
theorem old_period (hrepeats : s.timer.isSingleShot = false) {old : Nat} (hold : old ∈ leftOver s) :
    ∃ t, Leads (only untouched sceneSystem) (started s duration) t
      ∧ t.timer.waiting = [old] := by
  obtain ⟨timer, handling, events⟩ := s
  have hkept : ∀ {ready : List (Nat × Bool)} (waiting : List Nat), old ∈ fired ready →
      old ∈ fired (ready ++ waiting.map fun w => (w, true)) := by
    intro ready waiting hmem
    rw [fired_append]
    exact List.mem_append_left _ hmem
  rcases List.mem_append.mp hold with hmem | hmem
  · cases handling with
    | idle => exact leads_from_fired (timer.start duration) hrepeats _ (hkept _ hmem)
    | running duration' left =>
        -- the handler that is running ends first
        have hend := leads_to_rearm (timer.start duration) hrepeats (.started :: events)
          duration' left
        obtain ⟨t, ht, hwaiting⟩ := leads_from_fired ((timer.start duration).start duration')
          hrepeats (.rearms :: .started :: events) (hkept _ (hkept _ hmem))
        exact ⟨t, hend.trans ht, hwaiting⟩
  · cases handling with
    | idle => cases hmem
    | running duration' left =>
        obtain rfl := List.mem_singleton.mp hmem
        exact ⟨_, leads_to_rearm (timer.start duration) hrepeats _ _ _, rfl⟩

/-- **START SETS THE PERIOD** of a timer that has nothing queued or running: left untouched it has
    one expiry to come at any time, with that duration, and never comes to rest before it; a
    single-shot timer has it once.  What is left over of a repeating timer can give it back the
    old period. -/
theorem start_sets_the_period {s' : Scene F} (hs : s.step (.start duration) = some s') :
    (leftOver s = [] → ∀ t, Leads (only untouched sceneSystem) s' t →
      Ticks duration s t ∧ (expiries t ≠ [] → ¬ Rests proceeds sceneSystem t))
    ∧ (s.timer.isSingleShot = false → ∀ old ∈ leftOver s,
        ∃ t, Leads (only untouched sceneSystem) s' t ∧ t.timer.waiting = [old]) := by
  cases hs
  exact ⟨fun hnone t ht => ⟨ticks_of_leads hnone ht, goes_on⟩,
    fun hrepeats old hold => old_period hrepeats hold⟩

end Runs

/-- A timer started with 100 expires, and is started with 200 before the expiry is handled: it is
    back at 100. -/
theorem start_sets_the_period_at_200 :
    (∃ s t : Scene Nat, exec sceneSystem ⟨.create, .idle, []⟩ [.start 200] = some s
      ∧ exec (only untouched sceneSystem) s [.expire, .take 0, .finish] = some t
      ∧ Ticks 200 ⟨.create, .idle, []⟩ t)
    ∧ ∃ s t : Scene Nat, exec sceneSystem ⟨.create, .idle, []⟩ [.start 100, .expire, .start 200]
        = some s
      ∧ Leads (only untouched sceneSystem) s t ∧ t.timer.waiting = [100] := by
  constructor
  · have hstart : Scene.step (⟨.create, .idle, []⟩ : Scene Nat) (.start 200) = some _ := rfl
    have hexec : exec (only untouched sceneSystem)
        (started (⟨.create, .idle, []⟩ : Scene Nat) 200) [.expire, .take 0, .finish] = some _ := rfl
    exact ⟨_, _, rfl, hexec, ((start_sets_the_period hstart).1 rfl _ ⟨_, hexec⟩).1⟩
  · have hfired : exec sceneSystem (⟨.create, .idle, []⟩ : Scene Nat) [.start 100, .expire]
        = some ⟨⟨[], [(100, false)], [], false⟩, .idle, [.started]⟩ := rfl
    have hstart : Scene.step (⟨⟨[], [(100, false)], [], false⟩, .idle, [.started]⟩ : Scene Nat)
        (.start 200) = some _ := rfl
    obtain ⟨t, ht, hwaiting⟩ := (start_sets_the_period hstart).2 rfl 100 (List.mem_singleton_self _)
    exact ⟨_, t, exec_append hfired (exec_cons hstart rfl), ht, hwaiting⟩

end EasyRpcTimerPeriod
