import EasyRpc.TransitionProofs
import Mathlib.Algebra.GroupWithZero.Nat

/-! # Potentials — how long a run can be

    A potential pays for the steps of a system: each step lowers it by one at least, except for
    what the action of the step brings in.  So a run is no longer than its first potential and
    all that came in on the way (`Pays.length_le`), whatever the order of its steps; and a system
    confined to actions that bring nothing in cannot go on for ever, but comes to rest
    (`Pays.comes_to_rest`).  `PaysOn` asks for no more than the states of an invariant. -/

namespace Potential

open Transition

variable {St Act : Type} {sys : System St Act} {potential : St → Nat} {brings : Act → Nat}
  {own : St → Act → Bool} {I : St → Prop}

/-- Every step is paid for. -/
def Pays (sys : System St Act) (potential : St → Nat) (brings : Act → Nat) : Prop :=
  ∀ s a s', sys.step s a = some s' → potential s' + 1 ≤ potential s + brings a

/-- Every step from a state of `I` leads to another and is paid for. -/
def PaysOn (I : St → Prop) (sys : System St Act) (potential : St → Nat) (brings : Act → Nat) :
    Prop :=
  ∀ s a s', I s → sys.step s a = some s' → I s' ∧ potential s' + 1 ≤ potential s + brings a

/-- No action of the kind is possible. -/
def Rests (own : St → Act → Bool) (sys : System St Act) (s : St) : Prop :=
  ∀ a, own s a = true → sys.step s a = none

theorem Pays.on (h : Pays sys potential brings) :
    PaysOn (fun _ => True) sys potential brings :=
  fun s a s' _ hs => ⟨trivial, h s a s' hs⟩

/-- Where the actions bring nothing in, what they need is there. -/
theorem Pays.confined (h : Pays sys potential brings)
    (hown : ∀ s a, own s a = true → brings a = 0) :
    PaysOn (fun _ => True) (only own sys) potential fun _ => 0 := by
  intro s a s' _ hs
  obtain ⟨ha, hs⟩ := step_only.mp hs
  have hstep := h s a s' hs
  rw [hown s a ha] at hstep
  exact ⟨trivial, hstep⟩

/-- **LENGTH OF A RUN**: what is left, and one for every step, was there or came in. -/
theorem PaysOn.length_le (h : PaysOn I sys potential brings) {as : List Act} :
    ∀ {s t : St}, I s → exec sys s as = some t →
      I t ∧ as.length + potential t ≤ potential s + (as.map brings).sum := by
  induction as with
  | nil =>
      intro s t hI hexec
      cases hexec
      exact ⟨hI, Nat.le_of_eq (Nat.add_comm 0 _)⟩
  | cons a as ih =>
      intro s t hI hexec
      obtain ⟨s', hs, hexec⟩ := exec_uncons hexec
      obtain ⟨hI', hstep⟩ := h s a s' hI hs
      obtain ⟨ht, hrest⟩ := ih hI' hexec
      refine ⟨ht, ?_⟩
      rw [List.length_cons, List.map_cons, List.sum_cons]
      omega

/-- A run that brings nothing in is no longer than the potential it starts with. -/
theorem PaysOn.length_le_of_zero (h : PaysOn I sys potential fun _ => 0) {as : List Act}
    {s t : St} (hI : I s) (hexec : exec sys s as = some t) : as.length ≤ potential s := by
  have hlen := (h.length_le hI hexec).2
  rw [List.map_const', List.sum_replicate_nat] at hlen
  omega

/-- **A RUN IS NO LONGER** than its potential and what it brings in. -/
theorem Pays.length_le (h : Pays sys potential brings) {as : List Act} {s t : St}
    (hexec : exec sys s as = some t) :
    as.length + potential t ≤ potential s + (as.map brings).sum :=
  (h.on.length_le trivial hexec).2

/-- A run of one's own steps is no longer than the potential. -/
theorem Pays.length_le_of_own (h : Pays sys potential brings)
    (hown : ∀ s a, own s a = true → brings a = 0) {as : List Act} {s t : St}
    (hexec : exec (only own sys) s as = some t) : as.length ≤ potential s :=
  (h.confined hown).length_le_of_zero trivial hexec

/-- **TAKING STOCK**: what every step changes by what its action brings in, the run does too. -/
theorem exec_sum {stock : St → Nat}
    (hstep : ∀ s a s', sys.step s a = some s' → stock s' = stock s + brings a)
    {as : List Act} : ∀ {s t : St}, exec sys s as = some t →
      stock t = stock s + (as.map brings).sum := by
  induction as with
  | nil =>
      intro s t hexec
      cases hexec
      rfl
  | cons a as ih =>
      intro s t hexec
      obtain ⟨s', hs, hexec⟩ := exec_uncons hexec
      rw [ih hexec, hstep s a s' hs, List.map_cons, List.sum_cons, Nat.add_assoc]

/-- **COMING TO REST**: actions that need no more than what is there lead to a state where none
    is possible. -/
theorem PaysOn.comes_to_rest (h : PaysOn I (only own sys) potential fun _ => 0) {s : St}
    (hI : I s) : ∃ as t, exec (only own sys) s as = some t ∧ Rests own sys t := by
  induction hn : potential s using Nat.strongRecOn generalizing s with
  | ind n ih =>
      by_cases hrest : Rests own sys s
      · exact ⟨[], s, rfl, hrest⟩
      · simp only [Rests, not_forall, exists_prop] at hrest
        obtain ⟨a, ha, hsome⟩ := hrest
        obtain ⟨s', hs⟩ := Option.ne_none_iff_exists'.mp hsome
        obtain ⟨hI', hlt⟩ := h s a s' hI (step_only.mpr ⟨ha, hs⟩)
        replace hlt : potential s' < potential s := hlt
        obtain ⟨as, t, hexec, ht⟩ := ih (potential s') (hn ▸ hlt) hI' rfl
        exact ⟨a :: as, t, exec_cons (step_only.mpr ⟨ha, hs⟩) hexec, ht⟩

theorem Pays.comes_to_rest (h : Pays sys potential brings)
    (hown : ∀ s a, own s a = true → brings a = 0) (s : St) :
    ∃ as t, exec (only own sys) s as = some t ∧ Rests own sys t :=
  (h.confined hown).comes_to_rest trivial

end Potential
