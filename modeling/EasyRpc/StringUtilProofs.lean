import EasyRpc.OccurrenceProofs
import EasyRpc.StrtokProofs
import EasyRpc.WireProofs

/-! # String helpers — tests by search, comparison without case, splitting

    `starts_with` asks whether the first occurrence is at position 0, `ends_with` whether the
    last one is at the difference of the lengths.  Positions, lengths and the answer `npos` are
    64-bit unsigned words: where the second string is longer the difference wraps, and for one
    character it wraps to `npos` itself.

    So the prefix test is always right, and the suffix test is right exactly off the pairs in
    which the second string is one character longer than the first (`tests_exact_iff`).

    `split` hands the buffer of its constant parameter to `strtok_r`, so a call returns the
    tokens and leaves a string that may have changed; `contains` and `equals_ignore_case` only
    read. -/

namespace EasyRpcStringUtil

open Occurrence EasyRpcWire

/-- The bytes of a string literal. -/
def ascii (s : String) : Str := s.toList.map fun c => c.val.toUInt8

/-- A `std::string`, no longer than `max_size()`. -/
structure StdString where
  bytes : Str
  length_lt : bytes.length < 2 ^ 63

/-- `std::string::npos`. -/
def npos : UInt64 := UInt64.ofNat (2 ^ 64 - 1)

namespace StdString

variable (str substr : StdString)

/-- `size`, which fits in 64 bits. -/
def size : UInt64 := UInt64.ofNat str.bytes.length

/-- The position that a search returns. -/
def position : Option Nat → UInt64
  | some i => UInt64.ofNat i
  | none => npos

/-- `find`: the first occurrence. -/
def find : UInt64 := position (first substr.bytes str.bytes)

/-- `rfind`: the last occurrence. -/
def rfind : UInt64 := position (last substr.bytes str.bytes)

/-- `starts_with`. -/
def startsWith : Bool := str.find substr == 0

/-- `ends_with`, with the subtraction wrapping where the pattern is the longer one. -/
def endsWith : Bool := str.rfind substr == str.size - substr.size

/-- `contains`. -/
def contains : Bool := if str.find substr == npos then false else true

/-- The characters of `delimiter.c_str()`. -/
def delims (delimiter : StdString) : Strtok.Delims UInt8 where
  nul := 0
  isDelim c := (delimiter.bytes.takeWhile (· != 0)).contains c
  nul_not_delim := by
    rw [List.contains_eq_any_beq, List.any_eq_false]
    intro c hc
    have hne : (c != 0) = true := List.mem_takeWhile_imp (p := (· != 0)) hc
    rw [beq_iff_eq]
    exact fun h => bne_iff_ne.mp hne h.symm

/-- The tokens, and the caller's string as `strtok_r` leaves it. -/
def split (delimiter : StdString) : List Str × StdString :=
  ((Strtok.tokens delimiter.delims str.bytes).1,
    ⟨(Strtok.tokens delimiter.delims str.bytes).2,
      (Strtok.tokens_length str.bytes).symm ▸ str.length_lt⟩)

end StdString

/-- `::tolower` of one byte in the C locale. -/
def tolowerByte (c : UInt8) : UInt8 := if 65 ≤ c && c ≤ 90 then c + 32 else c

/-- `tolower` of a string, byte by byte. -/
def tolower (str : Str) : Str := str.map tolowerByte

/-- `equals_ignore_case`. -/
def equalsIgnoreCase (str1 str2 : Str) : Bool := tolower str1 == tolower str2

/-- Both tests say what their names say. -/
structure TestsExact (s t : StdString) : Prop where
  startsWith : s.startsWith t = true ↔ t.bytes <+: s.bytes
  endsWith : s.endsWith t = true ↔ t.bytes <:+ s.bytes

section Searches

variable {s t : StdString}

theorem StdString.size_toNat (s : StdString) : s.size.toNat = s.bytes.length :=
  UInt64.toNat_ofNat_of_lt' (Nat.lt_trans s.length_lt (by decide))

theorem position_toNat {i : Nat} (hi : i < 2 ^ 64) :
    (StdString.position (some i)).toNat = i :=
  UInt64.toNat_ofNat_of_lt' hi

theorem npos_toNat : npos.toNat = 2 ^ 64 - 1 := rfl

/-- Where the first occurrence stands is far below `npos`. -/
theorem first_lt {i : Nat} (h : first t.bytes s.bytes = some i) : i < 2 ^ 63 :=
  Nat.lt_of_le_of_lt (first_le h) s.length_lt

/-- The length difference, which wraps where `t` is longer. -/
theorem size_sub_toNat (s t : StdString) :
    (s.size - t.size).toNat
      = (2 ^ 64 - t.bytes.length + s.bytes.length) % 2 ^ 64 := by
  rw [UInt64.toNat_sub, s.size_toNat, t.size_toNat]

/-- **`starts_with` IS EXACT**: it tests for a prefix. -/
theorem startsWith_iff : s.startsWith t = true ↔ t.bytes <+: s.bytes := by
  rw [← first_eq_zero_iff, StdString.startsWith, beq_iff_eq, StdString.find]
  cases hfirst : first t.bytes s.bytes with
  | none => exact iff_of_false (by decide) nofun
  | some i =>
      have hi : i < 2 ^ 64 := Nat.lt_trans (first_lt hfirst) (by decide)
      rw [← UInt64.toNat_inj, position_toNat hi]
      constructor
      · intro h
        exact congrArg some h
      · intro h
        exact Option.some.inj h

/-- The suffix test takes a string that is one character longer for a suffix: nothing is found,
    and the length difference is `npos`. -/
theorem endsWith_iff :
    s.endsWith t = true ↔ t.bytes <:+ s.bytes ∨ t.bytes.length = s.bytes.length + 1 := by
  have hs := s.length_lt
  have ht := t.length_lt
  rw [← last_ends_iff, StdString.endsWith, beq_iff_eq, StdString.rfind, ← UInt64.toNat_inj,
    size_sub_toNat]
  cases hlast : last t.bytes s.bytes with
  | none =>
      rw [StdString.position, npos_toNat]
      constructor
      · intro h
        exact Or.inr (by omega)
      · rintro (⟨i, hi, -⟩ | hlonger)
        · exact nomatch hi
        · omega
  | some i =>
      have hle := last_le hlast
      rw [position_toNat (by omega)]
      constructor
      · intro h
        exact Or.inl ⟨i, rfl, by omega⟩
      · rintro (⟨j, hj, hend⟩ | hlonger)
        · cases hj
          omega
        · omega

/-- A substring is found: no position in a string is `npos`. -/
theorem contains_iff : s.contains t = true ↔ t.bytes <:+: s.bytes := by
  rw [StdString.contains, StdString.find]
  cases hfirst : first t.bytes s.bytes with
  | none => exact iff_of_false (by decide) (first_eq_none_iff.mp hfirst)
  | some i =>
      have hsome : ¬ first t.bytes s.bytes = none := by
        rw [hfirst]
        exact nofun
      refine iff_of_true ?_ (not_not.mp (mt first_eq_none_iff.mpr hsome))
      rw [if_neg]
      intro heq
      have hi := first_lt hfirst
      have hpos := UInt64.toNat_inj.mpr (beq_iff_eq.mp heq)
      rw [position_toNat (Nat.lt_trans hi (by decide)), npos_toNat] at hpos
      omega

end Searches

/-- **THE TESTS ARE EXACT** off the pairs in which the second string is one character longer. -/
theorem tests_exact_iff (s t : StdString) :
    TestsExact s t ↔ t.bytes.length ≠ s.bytes.length + 1 := by
  constructor
  · intro h hlonger
    have hsuffix := h.endsWith.mp (endsWith_iff.mpr (Or.inr hlonger))
    have hle := hsuffix.length_le
    omega
  · intro hne
    refine ⟨startsWith_iff, ?_⟩
    rw [endsWith_iff]
    exact or_iff_left hne

/-- `log` is taken to end with `conf`. -/
theorem log_ends_with_conf : ¬ ∀ s t : StdString, TestsExact s t := by
  intro h
  have htest := (h ⟨[108, 111, 103], by decide⟩ ⟨[99, 111, 110, 102], by decide⟩).endsWith
  have hsuffix := htest.mp (by decide)
  exact absurd hsuffix.length_le (by decide)

end EasyRpcStringUtil
