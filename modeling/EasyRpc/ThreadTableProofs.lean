import Mathlib.Algebra.GroupWithZero.Nat
/-! # Tables of threads

    A table of threads is a list of their places, one entry a thread; a step of thread `i` sets
    entry `i`.  Three kinds of facts are asked of a table: what entry `j` is after the step
    (`getElem?_set_some`), how many threads are at a given kind of place (`countP_move`), and what
    the places weigh together (`sum_move`), both stated without subtraction so that `omega` can
    use them.  A fourth is who is behind a mutex (`Guarded`): the thread that has it, and no
    other. -/

namespace ThreadTable

variable {Pl : Type}

/-- After a step of thread `i`, thread `j` is where it was, or it is the one that moved. -/
theorem getElem?_set_some {l : List Pl} {i j : Nat} {x y : Pl}
    (h : (l.set i x)[j]? = some y) : (i = j ∧ x = y) ∨ (i ≠ j ∧ l[j]? = some y) := by
  by_cases hij : i = j
  · subst hij
    rw [List.getElem?_set_self'] at h
    cases hl : l[i]? with
    | none =>
        rw [hl] at h
        exact nomatch h
    | some z =>
        rw [hl] at h
        exact Or.inl ⟨rfl, Option.some.inj h⟩
  · rw [List.getElem?_set_ne hij] at h
    exact Or.inr ⟨hij, h⟩

/-- The thread that moved is where it moved to. -/
theorem getElem?_set_moved {l : List Pl} {i : Nat} {x y : Pl} (h : l[i]? = some x) :
    (l.set i y)[i]? = some y :=
  List.getElem?_set_self (List.getElem?_eq_some_iff.mp h).1

/-- **COUNTING A MOVE**: one thread leaves place `x` for place `y`. -/
theorem countP_move (p : Pl → Bool) {l : List Pl} {i : Nat} {x : Pl} (h : l[i]? = some x)
    (y : Pl) :
    (l.set i y).countP p + (if p x then 1 else 0) = l.countP p + (if p y then 1 else 0) := by
  obtain ⟨hi, hx⟩ := List.getElem?_eq_some_iff.mp h
  have hle := List.boole_getElem_le_countP (p := p) hi
  rw [List.countP_set hi, hx]
  rw [hx] at hle
  omega

/-- **WEIGHING A MOVE**: one thread leaves place `x` for place `y`. -/
theorem sum_move (w : Pl → Nat) {l : List Pl} {i : Nat} {x : Pl} (h : l[i]? = some x) (y : Pl) :
    ((l.set i y).map w).sum + w x = (l.map w).sum + w y := by
  induction l generalizing i with
  | nil => cases h
  | cons z l ih =>
      cases i with
      | zero =>
          cases h
          simp only [List.set_cons_zero, List.map_cons, List.sum_cons]
          omega
      | succ i =>
          have hrest := ih h
          simp only [List.set_cons_succ, List.map_cons, List.sum_cons]
          omega

/-- A kind within another, which misses one thread of it, counts one less at least. -/
theorem countP_lt_of_mem {p q : Pl → Bool} {l : List Pl} {x : Pl} (hmem : x ∈ l)
    (hwithin : ∀ y ∈ l, q y = true → p y = true) (hp : p x = true) (hq : q x = false) :
    l.countP q + 1 ≤ l.countP p := by
  have hboth : l.countP q ≤ (l.filter q).countP p := by
    rw [List.countP_filter]
    exact List.countP_mono_left fun y hy hqy => Bool.and_eq_true_iff.mpr ⟨hwithin y hy hqy, hqy⟩
  have hmissed : 0 < (l.filter fun y => !q y).countP p := by
    refine List.countP_pos_iff.mpr ⟨x, List.mem_filter.mpr ⟨hmem, ?_⟩, hp⟩
    rw [hq]
    rfl
  rw [List.countP_eq_countP_filter_add l p q]
  exact Nat.add_le_add hboth hmissed

/-- A thread at a place of the kind makes the count positive. -/
theorem countP_pos_of_getElem? {p : Pl → Bool} {l : List Pl} {i : Nat} {x : Pl}
    (h : l[i]? = some x) (hp : p x = true) : 0 < l.countP p :=
  List.countP_pos_iff.mpr ⟨x, List.mem_of_getElem? h, hp⟩

/-- A positive count has a thread at a place of the kind. -/
theorem exists_getElem?_of_countP_pos {p : Pl → Bool} {l : List Pl} (h : 0 < l.countP p) :
    ∃ (i : Nat) (x : Pl), l[i]? = some x ∧ p x = true := by
  obtain ⟨x, hx, hp⟩ := List.countP_pos_iff.mp h
  obtain ⟨i, hi⟩ := List.mem_iff_getElem?.mp hx
  exact ⟨i, x, hi, hp⟩

/-! ## A mutex -/

/-- The places behind the mutex are those of the thread that has it. -/
def Guarded (inside : Pl → Bool) (mutex : Option Nat) (l : List Pl) : Prop :=
  ∀ i, mutex = some i ↔ ∃ x, l[i]? = some x ∧ inside x = true

section Guarded

variable {inside : Pl → Bool} {mutex : Option Nat} {l : List Pl} {i j : Nat} {x y : Pl}

/-- **MUTUAL EXCLUSION**. -/
theorem Guarded.exclusive (h : Guarded inside mutex l) (hi : l[i]? = some x)
    (hj : l[j]? = some y) (hx : inside x = true) (hy : inside y = true) : i = j :=
  Option.some.inj (((h i).mpr ⟨x, hi, hx⟩).symm.trans ((h j).mpr ⟨y, hj, hy⟩))

theorem Guarded.lock (h : Guarded inside none l) (hi : l[i]? = some x) (hy : inside y = true) :
    Guarded inside (some i) (l.set i y) := by
  intro j
  constructor
  · intro heq
    cases heq
    exact ⟨y, getElem?_set_moved hi, hy⟩
  · rintro ⟨z, hz, hin⟩
    rcases getElem?_set_some hz with ⟨rfl, -⟩ | ⟨-, hz⟩
    · rfl
    · cases (h j).mpr ⟨z, hz, hin⟩

/-- A move on one side of the mutex. -/
theorem Guarded.move (h : Guarded inside mutex l) (hi : l[i]? = some x)
    (hsame : inside y = inside x) : Guarded inside mutex (l.set i y) := by
  intro j
  rw [h j]
  constructor
  · rintro ⟨z, hz, hin⟩
    by_cases hij : i = j
    · subst hij
      cases hi.symm.trans hz
      exact ⟨y, getElem?_set_moved hi, hsame.trans hin⟩
    · exact ⟨z, (List.getElem?_set_ne hij).trans hz, hin⟩
  · rintro ⟨z, hz, hin⟩
    rcases getElem?_set_some hz with ⟨rfl, rfl⟩ | ⟨-, hz⟩
    · exact ⟨x, hi, hsame.symm.trans hin⟩
    · exact ⟨z, hz, hin⟩

theorem Guarded.unlock (h : Guarded inside mutex l) (hi : l[i]? = some x) (hx : inside x = true)
    (hy : inside y = false) : Guarded inside none (l.set i y) := by
  intro j
  refine ⟨nofun, ?_⟩
  rintro ⟨z, hz, hin⟩
  rcases getElem?_set_some hz with ⟨rfl, rfl⟩ | ⟨hne, hz⟩
  · exact absurd hin (by rw [hy]; exact Bool.false_ne_true)
  · exact absurd (h.exclusive hi hz hx hin) hne

end Guarded

end ThreadTable
