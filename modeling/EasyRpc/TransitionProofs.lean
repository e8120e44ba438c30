/-! # Guarded runs of a labelled transition system

    A system is a set of start states and a partial step function.  `Reaches sys ok` collects
    the states of the runs whose every step meets `ok` in the state it leaves; `Reachable` puts
    no condition on the steps; `Leads` relates a state to those that some run takes it to.  Three
    rules carry every result about runs:

    * **`Reaches.invariant`** — what holds at the start and survives one step holds all along;
    * **`Reaches.simulation`** — a run maps to a run of another system, step by step or with
      stutters, or is related to one (`Reaches.forward`);
    * **`Reaches.exec`** — a list of actions that executes is a run.  `only` confines a system to
      some of its actions. -/

namespace Transition

variable {St Act Top Cmd : Type}

/-- A labelled transition system: where runs start, and what an action does to a state
    (`none` where the action is not possible). -/
structure System (St Act : Type) where
  start : St → Prop
  step : St → Act → Option St

/-- The states of the runs whose every step meets `ok` in the state it leaves. -/
inductive Reaches (sys : System St Act) (ok : St → Act → Prop) : St → Prop where
  | start {s : St} : sys.start s → Reaches sys ok s
  | step {s s' : St} {a : Act} :
      Reaches sys ok s → ok s a → sys.step s a = some s' → Reaches sys ok s'

/-- The states of all runs. -/
def Reachable (sys : System St Act) : St → Prop :=
  Reaches sys (fun _ _ => True)

theorem Reachable.start {sys : System St Act} {s : St} (h : sys.start s) :
    Reachable sys s :=
  Reaches.start h

theorem Reachable.step {sys : System St Act} {s s' : St} {a : Act}
    (h : Reachable sys s) (hs : sys.step s a = some s') : Reachable sys s' :=
  Reaches.step h trivial hs

/-- A stronger condition on the steps allows fewer runs. -/
theorem Reaches.mono {sys : System St Act} {ok ok' : St → Act → Prop}
    (hok : ∀ s a, ok s a → ok' s a) {s : St} (h : Reaches sys ok s) :
    Reaches sys ok' s := by
  induction h with
  | start h0 => exact Reaches.start h0
  | step _ hoka hs ih => exact Reaches.step ih (hok _ _ hoka) hs

/-- **INVARIANT RULE**, relative to a fact `J` already known of every state of the run. -/
theorem Reaches.invariant_of {sys : System St Act} {ok : St → Act → Prop}
    {J I : St → Prop} (hJ : ∀ s, Reaches sys ok s → J s)
    (hstart : ∀ s, sys.start s → I s)
    (hstep : ∀ s a s', J s → I s → ok s a → sys.step s a = some s' → I s')
    {s : St} (h : Reaches sys ok s) : I s := by
  induction h with
  | start h0 => exact hstart _ h0
  | step hr hoka hs ih => exact hstep _ _ _ (hJ _ hr) ih hoka hs

/-- **INVARIANT RULE**: what holds at the start and is preserved by the steps that meet `ok`
    holds in every state of the run. -/
theorem Reaches.invariant {sys : System St Act} {ok : St → Act → Prop} {I : St → Prop}
    (hstart : ∀ s, sys.start s → I s)
    (hstep : ∀ s a s', I s → ok s a → sys.step s a = some s' → I s')
    {s : St} (h : Reaches sys ok s) : I s :=
  h.invariant_of (J := fun _ => True) (fun _ _ => trivial) hstart
    (fun s a s' _ hI hoka hs => hstep s a s' hI hoka hs)

/-- **SIMULATION RULE**: an abstraction that sends every step either to a step of the other
    system or to no step at all sends runs to runs. -/
theorem Reaches.simulation {sys : System St Act} {abs : System Top Cmd}
    {ok : St → Act → Prop} {J : St → Prop} (f : St → Top)
    (hJ : ∀ s, Reaches sys ok s → J s)
    (hstart : ∀ s, sys.start s → abs.start (f s))
    (hstep : ∀ s a s', J s → ok s a → sys.step s a = some s' →
      f s' = f s ∨ ∃ c, abs.step (f s) c = some (f s'))
    {s : St} (h : Reaches sys ok s) : Reachable abs (f s) := by
  refine h.invariant_of (I := fun s => Reachable abs (f s)) hJ ?_ ?_
  · intro s h0
    exact Reachable.start (hstart s h0)
  · intro s a s' hJs hI hoka hs
    rcases hstep s a s' hJs hoka hs with heq | ⟨c, hc⟩
    · rw [heq]
      exact hI
    · exact hI.step hc

/-- **FORWARD SIMULATION**: a relation that every step keeps, with the other system going on by the
    steps it needs for that, relates every state of a run to a state of a run of the other. -/
theorem Reaches.forward {sys : System St Act} {abs : System Top Cmd} {ok : St → Act → Prop}
    {ok' : Top → Cmd → Prop} {R : St → Top → Prop}
    (hstart : ∀ s, sys.start s → ∃ t, abs.start t ∧ R s t)
    (hstep : ∀ s a s' t, Reaches abs ok' t → R s t → ok s a → sys.step s a = some s' →
      ∃ t', Reaches abs ok' t' ∧ R s' t')
    {s : St} (h : Reaches sys ok s) : ∃ t, Reaches abs ok' t ∧ R s t := by
  refine h.invariant (I := fun s => ∃ t, Reaches abs ok' t ∧ R s t) ?_ ?_
  · intro s h0
    obtain ⟨t, ht, hR⟩ := hstart s h0
    exact ⟨t, Reaches.start ht, hR⟩
  · rintro s a s' ⟨t, ht, hR⟩ hoka hs
    exact hstep s a s' t ht hR hoka hs

/-- Executing a list of actions. -/
def exec (sys : System St Act) : St → List Act → Option St
  | s, [] => some s
  | s, a :: as =>
      match sys.step s a with
      | none => none
      | some s' => exec sys s' as

theorem exec_cons {sys : System St Act} {s s' t : St} {a : Act} {as : List Act}
    (hs : sys.step s a = some s') (h : exec sys s' as = some t) :
    exec sys s (a :: as) = some t := by
  show (match sys.step s a with
    | none => none
    | some u => exec sys u as) = some t
  rw [hs]
  exact h

/-- The first step of a list that executes. -/
theorem exec_uncons {sys : System St Act} {s t : St} {a : Act} {as : List Act}
    (h : exec sys s (a :: as) = some t) :
    ∃ s', sys.step s a = some s' ∧ exec sys s' as = some t := by
  cases hs : sys.step s a with
  | none =>
      simp only [exec, hs] at h
      cases h
  | some s' =>
      simp only [exec, hs] at h
      exact ⟨s', rfl, h⟩

theorem exec_append {sys : System St Act} {as bs : List Act} :
    ∀ {s t u : St}, exec sys s as = some t → exec sys t bs = some u →
      exec sys s (as ++ bs) = some u := by
  induction as with
  | nil =>
      intro s t u h1 h2
      cases h1
      exact h2
  | cons a as ih =>
      intro s t u h1 h2
      obtain ⟨s', hs, h1⟩ := exec_uncons h1
      exact exec_cons hs (ih h1 h2)

/-- What runs in a system runs in one that has all its steps. -/
theorem exec_mono {sys sys' : System St Act}
    (hsteps : ∀ s a t, sys.step s a = some t → sys'.step s a = some t) {as : List Act} :
    ∀ {s t : St}, exec sys s as = some t → exec sys' s as = some t := by
  induction as with
  | nil => exact fun h => h
  | cons a as ih =>
      intro s t hexec
      obtain ⟨s', hs, hexec⟩ := exec_uncons hexec
      exact exec_cons (hsteps _ _ _ hs) (ih hexec)

/-- **EXECUTION RULE**: actions that meet `ok` wherever they are taken, and that execute, extend
    the run. -/
theorem Reaches.exec {sys : System St Act} {ok : St → Act → Prop} {as : List Act}
    (hok : ∀ a ∈ as, ∀ s, ok s a) :
    ∀ {s t : St}, Reaches sys ok s → exec sys s as = some t → Reaches sys ok t := by
  induction as with
  | nil =>
      intro s t h he
      cases he
      exact h
  | cons a as ih =>
      intro s t h he
      have htail : ∀ b ∈ as, ∀ s, ok s b := fun b hb => hok b (List.mem_cons_of_mem a hb)
      obtain ⟨s', hs, he⟩ := exec_uncons he
      exact ih htail (h.step (hok a List.mem_cons_self s) hs) he

theorem Reachable.exec {sys : System St Act} {as : List Act} {s t : St}
    (h : Reachable sys s) (he : exec sys s as = some t) : Reachable sys t :=
  Reaches.exec (fun _ _ _ => trivial) h he

/-- Every step of a run meets `ok` where the state it came to says so of the steps before it. -/
theorem Reaches.of_past {sys : System St Act} {ok : St → Act → Prop} {P : St → Prop}
    (hpast : ∀ s a s', sys.step s a = some s' → P s' → P s ∧ ok s a) {s : St}
    (h : Reachable sys s) : P s → Reaches sys ok s := by
  induction h with
  | start h0 => exact fun _ => Reaches.start h0
  | step _ _ hs ih =>
      intro hP
      obtain ⟨hbefore, hok⟩ := hpast _ _ _ hs hP
      exact Reaches.step (ih hbefore) hok hs

/-! ## Confined runs -/

section Confined

variable {sys : System St Act} {own : St → Act → Bool}

/-- The system confined to some of its actions. -/
def only (own : St → Act → Bool) (sys : System St Act) : System St Act where
  start := sys.start
  step s a := if own s a then sys.step s a else none

theorem step_only {s s' : St} {a : Act} :
    (only own sys).step s a = some s' ↔ own s a = true ∧ sys.step s a = some s' :=
  Option.ite_none_right_eq_some

/-- A run of the confined system is one of the whole. -/
theorem exec_only {as : List Act} {s t : St} (h : exec (only own sys) s as = some t) :
    exec sys s as = some t :=
  exec_mono (fun _ _ _ hs => (step_only.mp hs).2) h

/-- Its steps meet what its actions meet. -/
theorem reaches_of_only {ok : St → Act → Prop} (hok : ∀ s a, own s a = true → ok s a)
    {as : List Act} : ∀ {s t : St}, Reaches sys ok s → exec (only own sys) s as = some t →
      Reaches sys ok t := by
  induction as with
  | nil =>
      intro s t h hexec
      cases hexec
      exact h
  | cons a as ih =>
      intro s t h hexec
      obtain ⟨s', hs, hexec⟩ := exec_uncons hexec
      obtain ⟨ha, hs⟩ := step_only.mp hs
      exact ih (h.step (hok s a ha) hs) hexec

end Confined

/-! ## What comes after -/

/-- `t` comes after `s` in some run. -/
def Leads (sys : System St Act) (s t : St) : Prop :=
  ∃ as, exec sys s as = some t

theorem Leads.refl (sys : System St Act) (s : St) : Leads sys s s :=
  ⟨[], rfl⟩

theorem Leads.cons {sys : System St Act} {s s' t : St} {a : Act}
    (hs : sys.step s a = some s') (h : Leads sys s' t) : Leads sys s t := by
  obtain ⟨as, has⟩ := h
  exact ⟨a :: as, exec_cons hs has⟩

theorem Leads.one {sys : System St Act} {s t : St} {a : Act} (hs : sys.step s a = some t) :
    Leads sys s t :=
  Leads.cons hs (Leads.refl sys t)

theorem Leads.trans {sys : System St Act} {s t u : St} (h1 : Leads sys s t)
    (h2 : Leads sys t u) : Leads sys s u := by
  obtain ⟨as, has⟩ := h1
  obtain ⟨bs, hbs⟩ := h2
  exact ⟨as ++ bs, exec_append has hbs⟩

/-- What every step preserves still holds wherever the run goes on to. -/
theorem Leads.invariant {sys : System St Act} {I : St → Prop}
    (hstep : ∀ s a s', I s → sys.step s a = some s' → I s') {s t : St} (h : Leads sys s t)
    (hI : I s) : I t := by
  obtain ⟨as, has⟩ := h
  induction as generalizing s with
  | nil =>
      cases has
      exact hI
  | cons a as ih =>
      obtain ⟨s', hs, has⟩ := exec_uncons has
      exact ih (hstep s a s' hI hs) has

/-- What leads to a state leads to its image where every step has one. -/
theorem Leads.simulation {sys : System St Act} {top : System Top Cmd} (f : St → Top)
    (hstep : ∀ s a s', sys.step s a = some s' → ∃ c, top.step (f s) c = some (f s'))
    {s t : St} (h : Leads sys s t) : Leads top (f s) (f t) := by
  obtain ⟨as, has⟩ := h
  induction as generalizing s with
  | nil =>
      cases has
      exact Leads.refl top _
  | cons a as ih =>
      obtain ⟨s', hs, has⟩ := exec_uncons has
      obtain ⟨c, hc⟩ := hstep s a s' hs
      exact Leads.cons hc (ih has)

/-- **CONTINUATIONS**: what leads to a state leads to its image, where every step has one or
    leaves the image as it is, relative to a fact `J` that the steps preserve. -/
theorem Leads.simulation_of {sys : System St Act} {top : System Top Cmd} {J : St → Prop}
    (f : St → Top) (hJ : ∀ s a s', J s → sys.step s a = some s' → J s')
    (hstep : ∀ s a s', J s → sys.step s a = some s' →
      f s' = f s ∨ ∃ c, top.step (f s) c = some (f s'))
    {s t : St} (h : Leads sys s t) (hs : J s) : Leads top (f s) (f t) := by
  refine (h.invariant (I := fun t => J t ∧ Leads top (f s) (f t)) ?_ ⟨hs, Leads.refl top _⟩).2
  rintro u a u' ⟨hu, hlead⟩ hstep'
  refine ⟨hJ u a u' hu hstep', ?_⟩
  rcases hstep u a u' hu hstep' with heq | ⟨c, hc⟩
  · rw [heq]
    exact hlead
  · exact hlead.trans (Leads.one hc)

theorem Reachable.leads {sys : System St Act} {s t : St} (h : Reachable sys s)
    (hl : Leads sys s t) : Reachable sys t := by
  obtain ⟨as, has⟩ := hl
  exact h.exec has

end Transition
