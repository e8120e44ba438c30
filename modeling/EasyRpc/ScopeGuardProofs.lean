import EasyRpc.ThreadTableProofs
import EasyRpc.TransitionProofs
import Mathlib.Data.List.Basic

/-! # Scope guards — who runs the cleanup

    A guard runs its function when it is destroyed, unless it has been dismissed.  Moving a guard
    makes a new one that is not dismissed, whatever the old one was, and dismisses the old one;
    the function of the old one, a closure over pointers, is as good as before.

    Once all guards are destroyed the cleanup has run once for each guard that is not dismissed
    (`Counted`).  One guard is not dismissed as long as each move is out of the guard that owns
    the cleanup, and that one has not been dismissed; any other move adds a second one
    (`runs_once`). -/

namespace EasyRpcScopeGuard

open Transition ThreadTable

/-- A guard: `func_` runs in its destructor unless it is dismissed. -/
structure ScopeGuard where
  dismissed : Bool
  destroyed : Bool
  deriving DecidableEq

/-- `make_guard`, and the guard that a move makes. -/
def ScopeGuard.make : ScopeGuard := ⟨false, false⟩

/-- `dismiss`. -/
def ScopeGuard.dismiss (g : ScopeGuard) : ScopeGuard := { g with dismissed := true }

/-- The end of the guard's lifetime. -/
def ScopeGuard.destroy (g : ScopeGuard) : ScopeGuard := { g with destroyed := true }

/-- The guards made from one `make_guard`, in the order in which they were made. -/
structure Scope where
  guards : List ScopeGuard
  -- how often the cleanup has run
  ran : Nat
  -- the guard that the cleanup has been moved to
  owner : Nat
  -- the owner was dismissed by the user
  userDismissed : Bool
  deriving DecidableEq

/-- What a program does to its guards, in any order. -/
inductive Act where
  | move (i : Nat)
  | dismiss (i : Nat)
  | destroy (i : Nat)
  deriving DecidableEq

namespace Scope

/-- One guard, the owner of the cleanup. -/
def create : Scope := ⟨[.make], 0, 0, false⟩

/-- A guard that has not been destroyed. -/
def live (s : Scope) (i : Nat) : Option ScopeGuard :=
  match s.guards[i]? with
  | some g => if g.destroyed then none else some g
  | none => none

/-- One step. A guard that is destroyed can be used no more. -/
def step (s : Scope) : Act → Option Scope
  | .move i =>
      match s.live i with
      | none => none
      | some g =>
          some { s with
            guards := s.guards.set i g.dismiss ++ [.make]
            owner := if i = s.owner then s.guards.length else s.owner }
  | .dismiss i =>
      match s.live i with
      | none => none
      | some g =>
          some { s with
            guards := s.guards.set i g.dismiss
            userDismissed := s.userDismissed || i == s.owner }
  | .destroy i =>
      match s.live i with
      | none => none
      | some g =>
          some { s with
            guards := s.guards.set i g.destroy
            ran := if !g.dismissed then s.ran + 1 else s.ran }

end Scope

/-- A guard and all that moves make of it. -/
def scopeSystem : System Scope Act where
  start s := s = .create
  step := Scope.step

/-- The end of every scope. -/
def AllDestroyed (s : Scope) : Prop := ∀ g ∈ s.guards, g.destroyed = true

/-- Once all guards are destroyed the cleanup has run once, or never if its owner was
    dismissed. -/
def RunsOnce (s : Scope) : Prop :=
  AllDestroyed s → s.ran = if s.userDismissed then 0 else 1

/-- A guard is moved that does not own the cleanup, or whose owner has been dismissed. -/
def MovesAmiss (s : Scope) : Act → Prop
  | .move i => i ≠ s.owner ∨ s.userDismissed = true
  | _ => False

/-! ## The steps -/

/-- The steps of `Scope.step` as a relation. -/
inductive Step (s : Scope) : Act → Scope → Prop where
  | moves (i : Nat) (g : ScopeGuard) : s.guards[i]? = some g → g.destroyed = false →
      Step s (.move i) { s with
        guards := s.guards.set i g.dismiss ++ [.make]
        owner := if i = s.owner then s.guards.length else s.owner }
  | dismisses (i : Nat) (g : ScopeGuard) : s.guards[i]? = some g → g.destroyed = false →
      Step s (.dismiss i) { s with
        guards := s.guards.set i g.dismiss
        userDismissed := s.userDismissed || i == s.owner }
  | destroys (i : Nat) (g : ScopeGuard) : s.guards[i]? = some g → g.destroyed = false →
      Step s (.destroy i) { s with
        guards := s.guards.set i g.destroy
        ran := if !g.dismissed then s.ran + 1 else s.ran }

/-- A guard can be used exactly if it is there and not destroyed. -/
theorem live_eq_some {s : Scope} {i : Nat} {g : ScopeGuard} :
    s.live i = some g ↔ s.guards[i]? = some g ∧ g.destroyed = false := by
  rw [Scope.live]
  cases s.guards[i]? with
  | none => exact iff_of_false nofun (fun h => nomatch h.1)
  | some g' =>
      show (if g'.destroyed = true then none else some g') = some g ↔ _
      rw [Option.ite_none_left_eq_some, Bool.not_eq_true]
      constructor
      · rintro ⟨halive, heq⟩
        cases heq
        exact ⟨rfl, halive⟩
      · rintro ⟨heq, halive⟩
        cases heq
        exact ⟨halive, rfl⟩

/-- **STEP INVERSION**. -/
theorem step_cases {s s' : Scope} {a : Act} (h : s.step a = some s') : Step s a s' := by
  cases a with
  | move i | dismiss i | destroy i =>
      unfold Scope.step at h
      cases hl : s.live i with
      | none =>
          simp only [hl] at h
          exact nomatch h
      | some g =>
          simp only [hl] at h
          cases h
          obtain ⟨hg, halive⟩ := live_eq_some.mp hl
          constructor
          · exact hg
          · exact halive

/-! ## The count of runs, in every run -/

/-- The guard runs the cleanup when it is destroyed. -/
def ScopeGuard.pending (g : ScopeGuard) : Bool := !g.dismissed

/-- The guard has run the cleanup. -/
def ScopeGuard.spent (g : ScopeGuard) : Bool := g.destroyed && !g.dismissed

section Guards

variable (g : ScopeGuard)

@[simp] theorem pending_dismiss : g.dismiss.pending = false := rfl
@[simp] theorem pending_destroy : g.destroy.pending = g.pending := rfl
@[simp] theorem spent_destroy : g.destroy.spent = g.pending := rfl

@[simp] theorem spent_dismiss : g.dismiss.spent = false := Bool.and_false _

theorem spent_of_live {g : ScopeGuard} (h : g.destroyed = false) : g.spent = false := by
  rw [ScopeGuard.spent, h, Bool.false_and]

end Guards

/-- The cleanup has run once for each guard that was destroyed before it was dismissed. -/
def Counted (s : Scope) : Prop := s.ran = s.guards.countP ScopeGuard.spent

/-- **THE COUNT**: every step keeps the number of cleanups that have run equal to the number of
    guards that ran one. -/
theorem Counted.step {s s' : Scope} {a : Act} (h : Counted s) (hs : Step s a s') :
    Counted s' := by
  cases hs with
  | moves i g hg halive =>
      have hcount := countP_move ScopeGuard.spent hg g.dismiss
      rw [spent_dismiss, spent_of_live halive] at hcount
      show s.ran = (s.guards.set i g.dismiss ++ [ScopeGuard.make]).countP ScopeGuard.spent
      rw [List.countP_append, h]
      exact hcount.symm
  | dismisses i g hg halive =>
      have hcount := countP_move ScopeGuard.spent hg g.dismiss
      rw [spent_dismiss, spent_of_live halive] at hcount
      exact h.trans hcount.symm
  | destroys i g hg halive =>
      have hcount := countP_move ScopeGuard.spent hg g.destroy
      rw [spent_destroy, spent_of_live halive] at hcount
      show (if g.pending then s.ran + 1 else s.ran) = (s.guards.set i g.destroy).countP _
      rw [h]
      split
      · rename_i hpending
        rw [if_pos hpending] at hcount
        exact hcount.symm
      · rename_i hdone
        rw [if_neg hdone] at hcount
        exact hcount.symm

theorem counted_of_reaches {ok : Scope → Act → Prop} {s : Scope}
    (h : Reaches scopeSystem ok s) : Counted s := by
  refine h.invariant ?_ ?_
  · rintro s rfl
    rfl
  · intro s a s' hI _ hs
    exact hI.step (step_cases hs)

/-- In the end every pending guard has run the cleanup. -/
theorem Counted.ran_eq {s : Scope} (h : Counted s) (hall : AllDestroyed s) :
    s.ran = s.guards.countP ScopeGuard.pending := by
  rw [h]
  refine List.countP_congr fun g hg => ?_
  rw [ScopeGuard.spent, hall g hg, Bool.true_and, ScopeGuard.pending]

/-! ## Runs in which every move is out of the owner -/

/-- The owner, until it is dismissed, is the only guard that will run the cleanup. -/
structure Owned (s : Scope) : Prop where
  owns : ∀ i g, s.guards[i]? = some g →
    (g.pending = true ↔ i = s.owner ∧ s.userDismissed = false)
  count : s.guards.countP ScopeGuard.pending = if s.userDismissed then 0 else 1

/-- After a move: an old guard, or the new one. -/
theorem getElem?_append_make {l : List ScopeGuard} {j : Nat} {g : ScopeGuard}
    (h : (l ++ [.make])[j]? = some g) :
    (j < l.length ∧ l[j]? = some g) ∨ (j = l.length ∧ g = .make) := by
  obtain ⟨hj, hg⟩ := List.getElem?_eq_some_iff.mp h
  rw [List.length_append, List.length_singleton] at hj
  rcases Nat.lt_succ_iff_lt_or_eq.mp hj with hlt | rfl
  · rw [List.getElem?_append_left hlt] at h
    exact Or.inl ⟨hlt, h⟩
  · rw [List.getElem?_concat_length] at h
    exact Or.inr ⟨rfl, (Option.some.inj h).symm⟩

theorem Owned.moves {s : Scope} (h : Owned s) {i : Nat} {g : ScopeGuard}
    (hg : s.guards[i]? = some g) (howner : i = s.owner) (huser : s.userDismissed = false) :
    Owned { s with
      guards := s.guards.set i g.dismiss ++ [.make]
      owner := if i = s.owner then s.guards.length else s.owner } := by
  have hpending : g.pending = true := (h.owns i g hg).mpr ⟨howner, huser⟩
  constructor
  · intro j g' hg'
    show _ ↔ j = (if i = s.owner then s.guards.length else s.owner) ∧ s.userDismissed = false
    rw [if_pos howner]
    rcases getElem?_append_make hg' with ⟨hj, hold⟩ | ⟨hj, rfl⟩
    · rw [List.length_set] at hj
      refine iff_of_false ?_ (fun hlen => absurd hlen.1 (Nat.ne_of_lt hj))
      rcases getElem?_set_some hold with ⟨-, rfl⟩ | ⟨hne, hother⟩
      · rw [pending_dismiss]
        nofun
      · intro hp
        exact hne (howner.trans ((h.owns j g' hother).mp hp).1.symm)
    · rw [List.length_set] at hj
      exact iff_of_true rfl ⟨hj, huser⟩
  · have hcount := countP_move ScopeGuard.pending hg g.dismiss
    have hold := h.count
    rw [pending_dismiss, hpending] at hcount
    rw [huser] at hold
    show (s.guards.set i g.dismiss ++ [ScopeGuard.make]).countP ScopeGuard.pending
      = if s.userDismissed then 0 else 1
    rw [huser, List.countP_append]
    exact hcount.trans hold

/-- Dismissing the owner gives it up; dismissing another guard changes nothing. -/
theorem Owned.dismisses {s : Scope} (h : Owned s) {i : Nat} {g : ScopeGuard}
    (hg : s.guards[i]? = some g) :
    Owned { s with
      guards := s.guards.set i g.dismiss
      userDismissed := s.userDismissed || i == s.owner } := by
  constructor
  · intro j g' hg'
    show _ ↔ j = s.owner ∧ (s.userDismissed || i == s.owner) = false
    rw [Bool.or_eq_false_iff, beq_eq_false_iff_ne]
    rcases getElem?_set_some hg' with ⟨rfl, rfl⟩ | ⟨hne, hother⟩
    · refine iff_of_false (by rw [pending_dismiss]; nofun) ?_
      rintro ⟨howner, -, hnot⟩
      exact hnot howner
    · rw [h.owns j g' hother]
      constructor
      · rintro ⟨rfl, huser⟩
        exact ⟨rfl, huser, hne⟩
      · rintro ⟨howner, huser, -⟩
        exact ⟨howner, huser⟩
  · have hcount := countP_move ScopeGuard.pending hg g.dismiss
    have hold := h.count
    rw [pending_dismiss] at hcount
    show (s.guards.set i g.dismiss).countP ScopeGuard.pending
      = if s.userDismissed || i == s.owner then 0 else 1
    cases hp : g.pending with
    | true =>
        obtain ⟨rfl, huser⟩ := (h.owns i g hg).mp hp
        rw [hp] at hcount
        rw [huser] at hold ⊢
        rw [beq_self_eq_true]
        exact Nat.succ.inj (hcount.trans hold)
    | false =>
        have hsame : (s.userDismissed || i == s.owner) = s.userDismissed := by
          cases huser : s.userDismissed with
          | true => rfl
          | false =>
              rw [Bool.false_or, beq_eq_false_iff_ne]
              intro howner
              have hyes := (h.owns i g hg).mpr ⟨howner, huser⟩
              rw [hp] at hyes
              exact nomatch hyes
        rw [hp] at hcount
        rw [hsame]
        exact hcount.trans hold

theorem Owned.destroys {s : Scope} (h : Owned s) {i : Nat} {g : ScopeGuard}
    (hg : s.guards[i]? = some g) (ran : Nat) :
    Owned { s with guards := s.guards.set i g.destroy, ran := ran } := by
  constructor
  · intro j g' hg'
    rcases getElem?_set_some hg' with ⟨rfl, rfl⟩ | ⟨-, hother⟩
    · exact h.owns i g hg
    · exact h.owns j g' hother
  · have hcount := countP_move ScopeGuard.pending hg g.destroy
    rw [pending_destroy] at hcount
    exact (Nat.add_right_cancel hcount).trans h.count

/-- In every run without a move amiss, the owner alone is to run the cleanup. -/
theorem owned_of_reaches {s : Scope}
    (h : Reaches scopeSystem (fun s a => ¬ MovesAmiss s a) s) : Owned s := by
  refine h.invariant ?_ ?_
  · rintro s rfl
    refine ⟨?_, rfl⟩
    intro i g hg
    obtain ⟨hi, hg⟩ := List.getElem?_eq_some_iff.mp hg
    obtain rfl := Nat.lt_one_iff.mp hi
    cases hg
    exact iff_of_true rfl ⟨rfl, rfl⟩
  · intro s a s' hI hok hs
    cases step_cases hs with
    | moves i g hg =>
        have howner : i = s.owner := not_not.mp fun hne => hok (Or.inl hne)
        have huser : s.userDismissed = false := by
          cases hu : s.userDismissed with
          | false => rfl
          | true => exact absurd (Or.inr hu) hok
        exact hI.moves hg howner huser
    | dismisses i g hg => exact hI.dismisses hg
    | destroys i g hg => exact hI.destroys hg _

/-! ## A move out of another guard -/

/-- The guards still there can be destroyed, with no other change. -/
theorem leads_allDestroyed (s : Scope) :
    ∃ t, Leads scopeSystem s t ∧ AllDestroyed t ∧ t.userDismissed = s.userDismissed
      ∧ t.guards.countP ScopeGuard.pending = s.guards.countP ScopeGuard.pending := by
  generalize hn : s.guards.countP (fun g => !g.destroyed) = n
  induction n generalizing s with
  | zero =>
      refine ⟨s, Leads.refl _ s, ?_, rfl, rfl⟩
      intro g hg
      have hnone := List.countP_eq_zero.mp hn g hg
      rw [Bool.not_eq_true, Bool.not_eq_false'] at hnone
      exact hnone
  | succ n ih =>
      obtain ⟨i, g, hg, hlive⟩ := exists_getElem?_of_countP_pos
        (p := fun g : ScopeGuard => !g.destroyed) (l := s.guards) (by rw [hn]; exact Nat.succ_pos n)
      rw [Bool.not_eq_true'] at hlive
      have hstep : s.step (.destroy i) = some { s with
          guards := s.guards.set i g.destroy
          ran := if !g.dismissed then s.ran + 1 else s.ran } := by
        simp only [Scope.step, live_eq_some.mpr ⟨hg, hlive⟩]
      have hfewer := countP_move (fun g : ScopeGuard => !g.destroyed) hg g.destroy
      have hsame := countP_move ScopeGuard.pending hg g.destroy
      rw [pending_destroy] at hsame
      simp only [ScopeGuard.destroy, hlive] at hfewer
      obtain ⟨t, hlead, hall, huser, hcount⟩ := ih
        { s with
          guards := s.guards.set i g.destroy
          ran := if !g.dismissed then s.ran + 1 else s.ran }
        (Nat.succ.inj (hfewer.trans hn))
      exact ⟨t, hlead.cons (a := .destroy i) hstep, hall, huser,
        hcount.trans (Nat.add_right_cancel hsame)⟩

/-- A move out of a guard that is not pending leaves one pending guard too many. -/
theorem moveAmiss_breaks {s s' : Scope} {a : Act}
    (hr : Reaches scopeSystem (fun s a => ¬ MovesAmiss s a) s) (ha : MovesAmiss s a)
    (hs : s.step a = some s') : ∃ t, Leads scopeSystem s' t ∧ ¬ RunsOnce t := by
  have hI := owned_of_reaches hr
  have hany : Reachable scopeSystem s := hr.mono fun _ _ _ => trivial
  have hr' : Reachable scopeSystem s' := Reachable.step hany hs
  obtain ⟨t, hlead, hall, huser, hcount⟩ := leads_allDestroyed s'
  refine ⟨t, hlead, ?_⟩
  intro honce
  have hran := (counted_of_reaches (hr'.leads hlead)).ran_eq hall
  rw [honce hall, huser, hcount] at hran
  cases step_cases hs with
  | moves i g hg =>
      have hdone : g.pending = false := by
        cases hp : g.pending with
        | false => rfl
        | true =>
            obtain ⟨howner, huser⟩ := (hI.owns i g hg).mp hp
            rcases ha with hne | hyes
            · exact absurd howner hne
            · rw [huser] at hyes
              exact nomatch hyes
      have hmove := countP_move ScopeGuard.pending hg g.dismiss
      have hold := hI.count
      rw [pending_dismiss, hdone] at hmove
      replace hmove : (s.guards.set i g.dismiss).countP ScopeGuard.pending
          = s.guards.countP ScopeGuard.pending := hmove
      replace hran : (if s.userDismissed then 0 else 1)
          = (s.guards.set i g.dismiss ++ [ScopeGuard.make]).countP ScopeGuard.pending := hran
      rw [List.countP_append, ← hold, ← hmove] at hran
      exact absurd hran (Nat.ne_of_lt (Nat.lt_succ_self _))
  | dismisses | destroys => exact ha.elim

/-- **THE CLEANUP RUNS ONCE**, or never if its owner was dismissed, in every run in which each
    move is out of the owner before it is dismissed; after any other move the run can end with
    one cleanup too many. -/
theorem runs_once (s : Scope) (h : Reaches scopeSystem (fun s a => ¬ MovesAmiss s a) s) :
    RunsOnce s ∧ ∀ a s', MovesAmiss s a → s.step a = some s' →
      ∃ t, Leads scopeSystem s' t ∧ ¬ RunsOnce t := by
  constructor
  · intro hall
    rw [(counted_of_reaches h).ran_eq hall]
    exact (owned_of_reaches h).count
  · intro a s' ha hs
    exact moveAmiss_breaks h ha hs

/-- Moved and destroyed, the cleanup runs once; moved after a dismissal, it runs all the same. -/
theorem runs_once_moved :
    (∃ s, exec scopeSystem .create [.move 0, .destroy 0, .destroy 1] = some s ∧ RunsOnce s)
    ∧ ∃ s t, exec scopeSystem .create [.dismiss 0, .move 0] = some s
      ∧ Leads scopeSystem s t ∧ ¬ RunsOnce t := by
  have hstart : Reaches scopeSystem (fun s a => ¬ MovesAmiss s a) .create := Reaches.start rfl
  constructor
  · refine ⟨_, rfl, (runs_once _ ?_).1⟩
    have hmove := hstart.step (a := Act.move 0) (fun h => h.elim (· rfl) nofun) rfl
    have hfirst := hmove.step (a := Act.destroy 0) id rfl
    exact hfirst.step (a := Act.destroy 1) id rfl
  · have hdismiss := hstart.step (a := Act.dismiss 0) id rfl
    obtain ⟨t, ht⟩ := (runs_once _ hdismiss).2 (.move 0) _ (Or.inr rfl) rfl
    exact ⟨_, t, rfl, ht⟩

/-- A dismissed guard that is moved runs the cleanup after all. -/
theorem dismissed_guard_runs :
    ∃ s, exec scopeSystem .create [.dismiss 0, .move 0, .destroy 1, .destroy 0] = some s
      ∧ s.userDismissed = true ∧ ¬ RunsOnce s := by
  refine ⟨_, rfl, rfl, ?_⟩
  intro h
  exact nomatch h (by unfold AllDestroyed; decide)

end EasyRpcScopeGuard
