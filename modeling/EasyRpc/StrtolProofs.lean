import EasyRpc.StrtokProofs

/-! # Decimal numerals — what `strtol` takes for one

    `strtol` in base 10 skips white space, takes an optional sign and then as many digits as
    there are; whatever comes behind the digits is ignored.  `Numeral` is that grammar and
    `strtol_eq_some_iff` says that the conversion succeeds on it alone. -/

namespace Strtol

open Strtok (dropWhile_run takeWhile_run dropWhile_head)

/-- `isspace` in the C locale. -/
def isSpace (c : UInt8) : Bool := c == 32 || (9 ≤ c && c ≤ 13)

/-- The ASCII digits. -/
def isDigit (c : UInt8) : Bool := 48 ≤ c && c ≤ 57

/-- What a digit counts. -/
def digitValue (c : UInt8) : Nat := c.toNat - 48

/-- The value of a string of digits. -/
def value (digits : List UInt8) : Nat := digits.foldl (fun n c => 10 * n + digitValue c) 0

/-- The optional sign and what follows it. -/
def sign : List UInt8 → Int × List UInt8
  | 43 :: s => (1, s)
  | 45 :: s => (-1, s)
  | s => (1, s)

/-- The value converted, or `none` where there is nothing to convert. -/
def strtol (s : List UInt8) : Option Int :=
  let s := s.dropWhile isSpace
  let digits := (sign s).2.takeWhile isDigit
  if digits = [] then none else some ((sign s).1 * value digits)

/-! ## The grammar -/

/-- A run of digits. -/
def Digits (l : List UInt8) : Prop := ∀ c ∈ l, isDigit c = true

/-- The optional sign. -/
inductive Sign : List UInt8 → Int → Prop where
  | none : Sign [] 1
  | plus : Sign [43] 1
  | minus : Sign [45] (-1)

/-- White space, a sign or none, and the digits up to the first other character. -/
inductive Numeral : List UInt8 → Int → Prop where
  | mk (spaces sgn digits rest : List UInt8) (k : Int) : (∀ c ∈ spaces, isSpace c = true) →
      Sign sgn k → digits ≠ [] → Digits digits → (∀ c ∈ rest.head?, isDigit c = false) →
      Numeral (spaces ++ (sgn ++ (digits ++ rest))) (k * value digits)

/-- The characters at which the skipping of white space and of the sign stops. -/
theorem digit_stops {c : UInt8} (h : isDigit c = true) :
    isSpace c = false ∧ c ≠ 43 ∧ c ≠ 45 := by
  have hd : (48 ≤ c && c ≤ 57) = true := h
  rw [Bool.and_eq_true, decide_eq_true_eq, decide_eq_true_eq, UInt8.le_iff_toNat_le,
    UInt8.le_iff_toNat_le] at hd
  have h48 : (48 : UInt8).toNat = 48 := rfl
  have h57 : (57 : UInt8).toNat = 57 := rfl
  refine ⟨?_, ?_, ?_⟩
  · have h13 : (13 : UInt8).toNat = 13 := rfl
    rw [isSpace, Bool.or_eq_false_iff, beq_eq_false_iff_ne, Bool.and_eq_false_iff,
      decide_eq_false_iff_not, decide_eq_false_iff_not, UInt8.le_iff_toNat_le (b := 13)]
    refine ⟨?_, Or.inr (by omega)⟩
    rintro rfl
    exact absurd hd.1 (by decide)
  · rintro rfl
    exact absurd hd.1 (by decide)
  · rintro rfl
    exact absurd hd.1 (by decide)

theorem sign_of_digit {c : UInt8} {s : List UInt8} (h : isDigit c = true) :
    sign (c :: s) = (1, c :: s) := by
  obtain ⟨-, hplus, hminus⟩ := digit_stops h
  unfold sign
  split
  · rename_i heq
    cases heq
    exact absurd rfl hplus
  · rename_i heq
    cases heq
    exact absurd rfl hminus
  · rfl

/-- A sign in front of digits is read as one. -/
theorem Sign.sign_eq {sgn : List UInt8} {k : Int} (h : Sign sgn k) {digits : List UInt8}
    (hne : digits ≠ []) (hdigits : Digits digits) (rest : List UInt8) :
    sign (sgn ++ (digits ++ rest)) = (k, digits ++ rest) := by
  cases h with
  | none =>
      cases digits with
      | nil => exact absurd rfl hne
      | cons c digits => exact sign_of_digit (hdigits c List.mem_cons_self)
  | plus | minus => rfl

/-- What `sign` reads is a sign. -/
theorem sign_spec (s : List UInt8) : ∃ sgn, Sign sgn (sign s).1 ∧ s = sgn ++ (sign s).2 := by
  unfold sign
  split
  · exact ⟨[43], .plus, rfl⟩
  · exact ⟨[45], .minus, rfl⟩
  · exact ⟨[], .none, rfl⟩

/-- White space stops at the sign or at the first digit. -/
theorem Sign.head_not_space {sgn : List UInt8} {k : Int} (h : Sign sgn k) {digits : List UInt8}
    (hne : digits ≠ []) (hdigits : Digits digits) (rest : List UInt8) :
    ∀ c ∈ (sgn ++ (digits ++ rest)).head?, isSpace c = false := by
  cases h with
  | none =>
      cases digits with
      | nil => exact absurd rfl hne
      | cons c digits =>
          rintro b ⟨⟩
          exact (digit_stops (hdigits c List.mem_cons_self)).1
  | plus | minus =>
      rintro b ⟨⟩
      rfl

/-- **THE GRAMMAR OF `strtol`**. -/
theorem strtol_eq_some_iff {s : List UInt8} {n : Int} : strtol s = some n ↔ Numeral s n := by
  unfold strtol
  dsimp only
  constructor
  · intro h
    obtain ⟨hne, heq⟩ := Option.ite_none_left_eq_some.mp h
    cases heq
    obtain ⟨sgn, hsign, hs⟩ := sign_spec (s.dropWhile isSpace)
    have hspaces : s = s.takeWhile isSpace ++ s.dropWhile isSpace :=
      List.takeWhile_append_dropWhile.symm
    generalize hrest : (sign (s.dropWhile isSpace)).2 = t at hs hne ⊢
    have ht : t = t.takeWhile isDigit ++ t.dropWhile isDigit :=
      List.takeWhile_append_dropWhile.symm
    conv => arg 1; rw [hspaces, hs, ht]
    refine .mk _ sgn _ _ _ (fun _ hc => List.mem_takeWhile_imp hc) hsign hne
      (fun _ hc => List.mem_takeWhile_imp hc) ?_
    intro c hc
    obtain ⟨r, hr⟩ := List.head?_eq_some_iff.mp hc
    exact dropWhile_head hr
  · rintro ⟨spaces, sgn, digits, rest, k, hspaces, hsign, hne, hdigits, hrest⟩
    rw [dropWhile_run hspaces (hsign.head_not_space hne hdigits rest),
      hsign.sign_eq hne hdigits rest, takeWhile_run hdigits hrest, if_neg hne]

/-- Plain digits are a numeral. -/
theorem numeral_of_digits {p : List UInt8} (hne : p ≠ []) (hp : Digits p) :
    Numeral p (value p) := by
  have h := Numeral.mk [] [] p [] 1 nofun .none hne hp nofun
  rw [Int.one_mul, List.append_nil] at h
  exact h

end Strtol
