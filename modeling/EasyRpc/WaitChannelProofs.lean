import EasyRpc.TransitionProofs

/-! # Counting notifications on one condition variable

    Threads that need an item sleep on a condition variable when there is none; a thread that
    makes an item owes one `notify_one`, which it issues later and outside the lock.  A channel
    counts the sleepers, the notifications owed, the sleepers already woken that have not looked
    again, and the items.  Items may be stolen by threads that never slept, and sleepers may wake
    by themselves.

    **No wakeup is lost** (`Channel.covered`): while somebody sleeps, every item is covered by a
    notification still owed or by a thread already woken. -/

namespace WaitChannel

open Transition

/-- The counters of one condition variable. -/
structure Channel where
  asleep : Nat
  owed : Nat
  woken : Nat
  items : Nat

/-- What happens at a condition variable. -/
inductive Event where
  /-- A thread makes an item and owes a notification for it. -/
  | post
  /-- An owed `notify_one` is issued. -/
  | signal
  /-- A sleeper wakes without a notification. -/
  | wake
  /-- A woken thread looks again and takes an item. -/
  | claim
  /-- A thread that did not sleep takes an item. -/
  | steal
  /-- A woken thread looks again and finds no item. -/
  | retreat
  /-- A thread that saw no item falls asleep. -/
  | sleep

/-- One event at the channel. -/
def Channel.step (c : Channel) : Event → Option Channel
  | .post => some { c with items := c.items + 1, owed := c.owed + 1 }
  | .signal =>
      if c.owed = 0 then none
      else if c.asleep = 0 then some { c with owed := c.owed - 1 }
      else some { c with owed := c.owed - 1, asleep := c.asleep - 1, woken := c.woken + 1 }
  | .wake =>
      if c.asleep = 0 then none
      else some { c with asleep := c.asleep - 1, woken := c.woken + 1 }
  | .claim =>
      if c.woken = 0 ∨ c.items = 0 then none
      else some { c with woken := c.woken - 1, items := c.items - 1 }
  | .steal => if c.items = 0 then none else some { c with items := c.items - 1 }
  | .retreat =>
      if c.woken = 0 ∨ c.items ≠ 0 then none else some { c with woken := c.woken - 1 }
  | .sleep => if c.items ≠ 0 then none else some { c with asleep := c.asleep + 1 }

/-! ### Events read off the counters -/

theorem Channel.post_of {c c' : Channel}
    (h : c'.asleep = c.asleep ∧ c'.owed = c.owed + 1 ∧ c'.woken = c.woken
      ∧ c'.items = c.items + 1) : c.step .post = some c' := by
  obtain ⟨ha, ho, hw, hi⟩ := h
  cases c'
  cases ha; cases ho; cases hw; cases hi
  rfl

theorem Channel.signal_idle_of {c c' : Channel}
    (h : c.asleep = 0 ∧ c'.asleep = c.asleep ∧ c'.owed + 1 = c.owed ∧ c'.woken = c.woken
      ∧ c'.items = c.items) : c.step .signal = some c' := by
  obtain ⟨h0, ha, ho, hw, hi⟩ := h
  cases c'
  cases ha; cases hw; cases hi
  rw [Channel.step, if_neg (by omega), if_pos h0, ← ho]
  rfl

theorem Channel.signal_of {c c' : Channel}
    (h : c'.asleep + 1 = c.asleep ∧ c'.owed + 1 = c.owed ∧ c'.woken = c.woken + 1
      ∧ c'.items = c.items) : c.step .signal = some c' := by
  obtain ⟨ha, ho, hw, hi⟩ := h
  cases c'
  cases hw; cases hi
  rw [Channel.step, if_neg (by omega), if_neg (by omega), ← ha, ← ho]
  rfl

theorem Channel.wake_of {c c' : Channel}
    (h : c'.asleep + 1 = c.asleep ∧ c'.owed = c.owed ∧ c'.woken = c.woken + 1
      ∧ c'.items = c.items) : c.step .wake = some c' := by
  obtain ⟨ha, ho, hw, hi⟩ := h
  cases c'
  cases ho; cases hw; cases hi
  rw [Channel.step, if_neg (by omega), ← ha]
  rfl

theorem Channel.claim_of {c c' : Channel}
    (h : c'.asleep = c.asleep ∧ c'.owed = c.owed ∧ c'.woken + 1 = c.woken
      ∧ c'.items + 1 = c.items) : c.step .claim = some c' := by
  obtain ⟨ha, ho, hw, hi⟩ := h
  cases c'
  cases ha; cases ho
  rw [Channel.step, if_neg (by omega), ← hw, ← hi]
  rfl

theorem Channel.steal_of {c c' : Channel}
    (h : c'.asleep = c.asleep ∧ c'.owed = c.owed ∧ c'.woken = c.woken
      ∧ c'.items + 1 = c.items) : c.step .steal = some c' := by
  obtain ⟨ha, ho, hw, hi⟩ := h
  cases c'
  cases ha; cases ho; cases hw
  rw [Channel.step, if_neg (by omega), ← hi]
  rfl

theorem Channel.retreat_of {c c' : Channel}
    (h : c.items = 0 ∧ c'.asleep = c.asleep ∧ c'.owed = c.owed ∧ c'.woken + 1 = c.woken
      ∧ c'.items = c.items) : c.step .retreat = some c' := by
  obtain ⟨h0, ha, ho, hw, hi⟩ := h
  cases c'
  cases ha; cases ho; cases hi
  rw [Channel.step, if_neg (by omega), ← hw]
  rfl

theorem Channel.sleep_of {c c' : Channel}
    (h : c.items = 0 ∧ c'.asleep = c.asleep + 1 ∧ c'.owed = c.owed ∧ c'.woken = c.woken
      ∧ c'.items = c.items) : c.step .sleep = some c' := by
  obtain ⟨h0, ha, ho, hw, hi⟩ := h
  cases c'
  cases ha; cases ho; cases hw; cases hi
  rw [Channel.step, if_neg (by omega)]

/-- The counters determine the channel. -/
theorem Channel.eq_of {c c' : Channel}
    (h : c'.asleep = c.asleep ∧ c'.owed = c.owed ∧ c'.woken = c.woken
      ∧ c'.items = c.items) : c' = c := by
  obtain ⟨ha, ho, hw, hi⟩ := h
  cases c; cases c'
  cases ha; cases ho; cases hw; cases hi
  rfl

/-- A channel starts with nobody asleep. -/
def system : System Channel Event where
  start c := c.asleep = 0
  step := Channel.step

/-- While somebody sleeps, every item is spoken for. -/
def Channel.Covered (c : Channel) : Prop :=
  0 < c.asleep → c.items ≤ c.owed + c.woken

/-- One event keeps the items covered. -/
theorem Channel.covered_step {c c' : Channel} {e : Event} (hc : c.Covered)
    (hs : c.step e = some c') : c'.Covered := by
  intro hpos
  cases e with
  | post =>
      cases hs
      have := hc hpos
      show c.items + 1 ≤ c.owed + 1 + c.woken
      omega
  | signal =>
      simp only [Channel.step] at hs
      split at hs
      · exact nomatch hs
      · split at hs
        · -- nobody to wake: the new state has no sleeper either
          rename_i h0
          cases hs
          exact absurd hpos (by rw [h0]; exact Nat.lt_irrefl 0)
        · rename_i howed hasleep
          cases hs
          have := hc (Nat.pos_of_ne_zero hasleep)
          show c.items ≤ c.owed - 1 + (c.woken + 1)
          omega
  | wake =>
      simp only [Channel.step] at hs
      split at hs
      · exact nomatch hs
      · rename_i hasleep
        cases hs
        have := hc (Nat.pos_of_ne_zero hasleep)
        show c.items ≤ c.owed + (c.woken + 1)
        omega
  | claim =>
      simp only [Channel.step] at hs
      split at hs
      · exact nomatch hs
      · cases hs
        have := hc hpos
        show c.items - 1 ≤ c.owed + (c.woken - 1)
        omega
  | steal =>
      simp only [Channel.step] at hs
      split at hs
      · exact nomatch hs
      · cases hs
        have := hc hpos
        show c.items - 1 ≤ c.owed + c.woken
        omega
  | retreat =>
      simp only [Channel.step] at hs
      split at hs
      · exact nomatch hs
      · cases hs
        show c.items ≤ c.owed + (c.woken - 1)
        omega
  | sleep =>
      simp only [Channel.step] at hs
      split at hs
      · exact nomatch hs
      · rename_i hitems
        cases hs
        show c.items ≤ c.owed + c.woken
        omega

/-- **NO LOST WAKEUP** on a channel: in every run the items stay covered while somebody
    sleeps. -/
theorem Channel.covered {c : Channel} (h : Reachable system c) : c.Covered := by
  refine Reaches.invariant (I := Channel.Covered) ?_ ?_ h
  · intro c h0 hpos
    have h0' : c.asleep = 0 := h0
    omega
  · intro c e c' hc _ hs
    exact Channel.covered_step hc hs

end WaitChannel
