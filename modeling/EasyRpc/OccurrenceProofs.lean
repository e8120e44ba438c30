import Mathlib.Data.List.Infix

/-! # Occurrences — the first and the last one of a list in another

    Two searches over the positions of a list, from the front and from the back.  The first
    occurrence is at position 0 exactly for a prefix; the last one ends where the list ends
    exactly for a suffix, overlapping occurrences or not. -/

namespace Occurrence

variable {A : Type} [BEq A]

/-- The position of the first occurrence of `t`. -/
def first (t : List A) : List A → Option Nat
  | [] => if t.isPrefixOf [] then some 0 else none
  | a :: s => if t.isPrefixOf (a :: s) then some 0 else (first t s).map (· + 1)

/-- The position of the last occurrence of `t`. -/
def last (t : List A) : List A → Option Nat
  | [] => if t.isPrefixOf [] then some 0 else none
  | a :: s =>
      match last t s with
      | some i => some (i + 1)
      | none => if t.isPrefixOf (a :: s) then some 0 else none

theorem first_le {t s : List A} {i : Nat} (h : first t s = some i) : i ≤ s.length := by
  induction s generalizing i with
  | nil =>
      rw [first] at h
      obtain ⟨-, hi⟩ := Option.ite_none_right_eq_some.mp h
      cases hi
      exact Nat.le_refl _
  | cons a s ih =>
      rw [first] at h
      split at h
      · cases h
        exact Nat.zero_le _
      · obtain ⟨j, hj, rfl⟩ := Option.map_eq_some_iff.mp h
        exact Nat.succ_le_succ (ih hj)

variable [LawfulBEq A]

theorem first_eq_zero_iff {t s : List A} : first t s = some 0 ↔ t <+: s := by
  rw [← List.isPrefixOf_iff_prefix]
  cases s with
  | nil =>
      rw [first]
      split
      · rename_i h
        exact iff_of_true rfl h
      · rename_i h
        exact iff_of_false nofun h
  | cons a s =>
      rw [first]
      split
      · rename_i h
        exact iff_of_true rfl h
      · rename_i h
        refine iff_of_false ?_ h
        intro hmap
        obtain ⟨i, -, hi⟩ := Option.map_eq_some_iff.mp hmap
        exact nomatch hi

/-- There is none exactly if the pattern does not occur. -/
theorem first_eq_none_iff {t s : List A} : first t s = none ↔ ¬ t <:+: s := by
  induction s with
  | nil =>
      rw [first, List.infix_nil, ← List.prefix_nil, ← List.isPrefixOf_iff_prefix]
      split
      · rename_i h
        exact iff_of_false nofun (not_not_intro h)
      · rename_i h
        exact iff_of_true rfl h
  | cons a s ih =>
      rw [first, List.infix_cons_iff, ← List.isPrefixOf_iff_prefix]
      split
      · rename_i h
        exact iff_of_false nofun (not_not_intro (Or.inl h))
      · rename_i h
        rw [Option.map_eq_none_iff, ih]
        exact ⟨fun hno hor => hor.elim h hno, fun hno hinfix => hno (Or.inr hinfix)⟩

/-- The last occurrence lies inside the list. -/
theorem last_prefix {t s : List A} {i : Nat} (h : last t s = some i) :
    t <+: s.drop i ∧ i ≤ s.length := by
  induction s generalizing i with
  | nil =>
      rw [last] at h
      obtain ⟨hp, hi⟩ := Option.ite_none_right_eq_some.mp h
      cases hi
      exact ⟨List.isPrefixOf_iff_prefix.mp hp, Nat.le_refl _⟩
  | cons a s ih =>
      rw [last] at h
      cases hlast : last t s with
      | some j =>
          rw [hlast] at h
          cases h
          obtain ⟨hp, hle⟩ := ih hlast
          exact ⟨hp, Nat.succ_le_succ hle⟩
      | none =>
          rw [hlast] at h
          obtain ⟨hp, hi⟩ := Option.ite_none_right_eq_some.mp h
          cases hi
          exact ⟨List.isPrefixOf_iff_prefix.mp hp, Nat.zero_le _⟩

theorem last_le {t s : List A} {i : Nat} (h : last t s = some i) : i + t.length ≤ s.length := by
  obtain ⟨hp, hi⟩ := last_prefix h
  have hle := hp.length_le
  rw [List.length_drop] at hle
  omega

/-- A suffix is found at the end, wherever else it occurs. -/
theorem last_of_suffix {t s : List A} (h : t <:+ s) :
    last t s = some (s.length - t.length) := by
  induction s with
  | nil =>
      rw [List.suffix_nil.mp h]
      rfl
  | cons a s ih =>
      rw [last]
      rcases List.suffix_cons_iff.mp h with rfl | hs
      · -- the whole list: a later occurrence would not fit
        cases hlast : last (a :: s) s with
        | some j =>
            have hle := last_le hlast
            rw [List.length_cons] at hle
            omega
        | none =>
            rw [Nat.sub_self]
            exact if_pos (List.isPrefixOf_iff_prefix.mpr (List.prefix_refl _))
      · rw [ih hs]
        have hle := hs.length_le
        show some (s.length - t.length + 1) = some (s.length + 1 - t.length)
        rw [Nat.sub_add_comm hle]

/-- **THE LAST OCCURRENCE ENDS THE LIST** exactly for a suffix. -/
theorem last_ends_iff {t s : List A} :
    (∃ i, last t s = some i ∧ i + t.length = s.length) ↔ t <:+ s := by
  constructor
  · rintro ⟨i, hlast, hend⟩
    obtain ⟨hp, hi⟩ := last_prefix hlast
    have hlen : t.length = (s.drop i).length := by
      rw [List.length_drop]
      omega
    rw [hp.eq_of_length hlen]
    exact List.drop_suffix i s
  · intro h
    exact ⟨_, last_of_suffix h, Nat.sub_add_cancel h.length_le⟩

end Occurrence
