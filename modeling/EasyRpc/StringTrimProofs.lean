import EasyRpc.StringUtilProofs
import Mathlib.Data.List.DropRight

/-! # Trimming — erasing up to one position and from another

    `trim_left` erases as many characters as precede the first one that is not in `token`,
    `trim_right` those behind the last one.  Where all characters are in `token` both searches
    answer `npos`: to the first erase that is a length beyond any string, and one behind it is
    position 0, from which the second erases.  `erase` throws for a position behind the end.

    No position is ever behind the end, and what is left is exact (`trim_exact`). -/

namespace EasyRpcStringTrim

open EasyRpcWire EasyRpcStringUtil

/-- The characters that are trimmed away. -/
def isToken (token : StdString) (c : UInt8) : Bool := token.bytes.contains c

/-- `find_first_not_of`: the position of the first character to keep, `npos` if there is none. -/
def findFirstNotOf (str token : StdString) : UInt64 :=
  StdString.position (str.bytes.findIdx? fun c => !isToken token c)

/-- `find_last_not_of`, from the back. -/
def findLastNotOf (str token : StdString) : UInt64 :=
  StdString.position ((str.bytes.reverse.findIdx? fun c => !isToken token c).map fun i =>
    str.bytes.length - 1 - i)

theorem erase_length (bytes : Str) (pos n : Nat) :
    (bytes.take pos ++ bytes.drop (pos + n)).length ≤ bytes.length := by
  rw [List.length_append, List.length_take, List.length_drop]
  omega

/-- `erase(pos, n)`; `none` where it throws `std::out_of_range`. -/
def erase (str : StdString) (pos n : UInt64) : Option StdString :=
  if pos ≤ str.size then
    some ⟨str.bytes.take pos.toNat ++ str.bytes.drop (pos.toNat + n.toNat),
      Nat.lt_of_le_of_lt (erase_length ..) str.length_lt⟩
  else none

/-- `trim_left`: erase up to the first character to keep. `npos` erases everything. -/
def trimLeft (str token : StdString) : Option StdString :=
  erase str 0 (findFirstNotOf str token)

/-- `trim_right`: erase after the last character to keep. From `npos` the sum wraps to zero, and
    everything goes. -/
def trimRight (str token : StdString) : Option StdString :=
  erase str (findLastNotOf str token + 1) npos

/-- `trim`: both ends, on one copy. -/
def trim (str token : StdString) : Option StdString := do
  let t ← erase str 0 (findFirstNotOf str token)
  erase t (findLastNotOf t token + 1) npos

/-- `t` is `s` without the characters of `token` at its two ends. -/
structure Trimmed (token : StdString) (s t : Str) : Prop where
  middle : ∃ l r, s = l ++ t ++ r ∧ (∀ c ∈ l, isToken token c = true)
    ∧ ∀ c ∈ r, isToken token c = true
  head : ∀ c ∈ t.head?, isToken token c = false
  last : ∀ c ∈ t.getLast?, isToken token c = false

section Trim

variable (str token : StdString)

/-- What is erased in front. -/
theorem drop_findFirstNotOf :
    str.bytes.drop (findFirstNotOf str token).toNat = str.bytes.dropWhile (isToken token) := by
  have hlen := str.length_lt
  rw [List.dropWhile_eq_drop_findIdx_not, findFirstNotOf]
  cases hfirst : str.bytes.findIdx? fun c => !isToken token c with
  | none =>
      rw [StdString.position, npos_toNat, List.findIdx?_eq_none_iff_findIdx_eq.mp hfirst,
        List.drop_length]
      exact List.drop_eq_nil_of_le (by omega)
  | some i =>
      obtain ⟨hi, heq⟩ := List.findIdx?_eq_some_iff_findIdx_eq.mp hfirst
      rw [position_toNat (by omega), heq]

/-- One behind the last character that stays: 0 where there is none. -/
theorem take_findLastNotOf :
    (findLastNotOf str token + 1).toNat ≤ str.bytes.length
    ∧ str.bytes.take (findLastNotOf str token + 1).toNat
      = str.bytes.rdropWhile (isToken token) := by
  have hlen := str.length_lt
  rw [List.rdropWhile, List.dropWhile_eq_drop_findIdx_not, findLastNotOf]
  cases hlast : str.bytes.reverse.findIdx? fun c => !isToken token c with
  | none =>
      have hpos : (StdString.position none + 1).toNat = 0 := by decide
      rw [List.findIdx?_eq_none_iff_findIdx_eq.mp hlast, List.drop_length, Option.map_none, hpos]
      exact ⟨Nat.zero_le _, rfl⟩
  | some i =>
      obtain ⟨hi, heq⟩ := List.findIdx?_eq_some_iff_findIdx_eq.mp hlast
      rw [List.length_reverse] at hi
      have hpos : (StdString.position (some (str.bytes.length - 1 - i)) + 1).toNat
          = str.bytes.length - i := by
        rw [UInt64.toNat_add, position_toNat (by omega), UInt64.toNat_one]
        omega
      rw [Option.map_some, hpos, heq, List.drop_reverse, List.reverse_reverse]
      exact ⟨Nat.sub_le _ _, rfl⟩

/-- Inside of the string `erase` does not throw, and cuts the stretch out. -/
theorem erase_of_le (pos n : UInt64) (h : pos.toNat ≤ str.bytes.length) :
    ∃ t, erase str pos n = some t
      ∧ t.bytes = str.bytes.take pos.toNat ++ str.bytes.drop (pos.toNat + n.toNat) := by
  rw [erase, if_pos]
  · exact ⟨_, rfl, rfl⟩
  · rw [UInt64.le_iff_toNat_le, str.size_toNat]
    exact h

/-- `trim_left` never throws and drops what stands at the front. -/
theorem trimLeft_eq : ∃ t, trimLeft str token = some t
    ∧ t.bytes = str.bytes.dropWhile (isToken token) := by
  obtain ⟨t, ht, hbytes⟩ := erase_of_le str 0 (findFirstNotOf str token) (Nat.zero_le _)
  refine ⟨t, ht, ?_⟩
  rw [hbytes, ← drop_findFirstNotOf str token, UInt64.toNat_zero, Nat.zero_add, List.take_zero,
    List.nil_append]

/-- `trim_right` never throws and drops what stands at the back. -/
theorem trimRight_eq : ∃ t, trimRight str token = some t
    ∧ t.bytes = str.bytes.rdropWhile (isToken token) := by
  obtain ⟨hle, htake⟩ := take_findLastNotOf str token
  obtain ⟨t, ht, hbytes⟩ := erase_of_le str _ npos hle
  have hlen := str.length_lt
  refine ⟨t, ht, ?_⟩
  rw [hbytes, htake, npos_toNat, List.drop_eq_nil_of_le (by omega), List.append_nil]

end Trim

/-! ## What is left -/

section Trimmed

variable {token : StdString} {l t r s : Str}

/-- Erasing in front stops at the head of what stays. -/
theorem dropWhile_token (hl : ∀ c ∈ l, isToken token c = true)
    (hhead : ∀ c ∈ t.head?, isToken token c = false) (hne : t ≠ []) :
    (l ++ t).dropWhile (isToken token) = t := by
  rw [List.dropWhile_append_of_pos hl]
  cases t with
  | nil => exact absurd rfl hne
  | cons c t => exact List.dropWhile_cons_of_neg (Bool.eq_false_iff.mp (hhead c rfl))

/-- Dropping from the back stops at a character to keep. -/
theorem rdropWhile_token (hr : ∀ c ∈ r, isToken token c = true)
    (hlast : ∀ c ∈ t.getLast?, isToken token c = false) (hne : t ≠ []) :
    (t ++ r).rdropWhile (isToken token) = t := by
  rw [List.rdropWhile, List.reverse_append, dropWhile_token, List.reverse_reverse]
  · exact fun c hc => hr c (List.mem_reverse.mp hc)
  · rw [List.head?_reverse]
    exact hlast
  · exact fun hnil => hne (List.reverse_eq_nil_iff.mp hnil)

/-- What is left does not depend on the order. -/
theorem Trimmed.eq (h : Trimmed token s t) :
    (s.dropWhile (isToken token)).rdropWhile (isToken token) = t
    ∧ (s.rdropWhile (isToken token)).dropWhile (isToken token) = t := by
  obtain ⟨⟨l, r, rfl, hl, hr⟩, hhead, hlast⟩ := h
  by_cases hne : t = []
  · have hall : ∀ c ∈ l ++ t ++ r, isToken token c = true := by
      rw [hne, List.append_nil]
      exact fun c hc => (List.mem_append.mp hc).elim (hl c) (hr c)
    rw [List.dropWhile_eq_nil_iff.mpr hall, List.rdropWhile_eq_nil_iff.mpr hall, hne]
    exact ⟨rfl, rfl⟩
  · constructor
    · have hhead' : ∀ c ∈ (t ++ r).head?, isToken token c = false := by
        rw [List.head?_append_of_ne_nil _ hne]
        exact hhead
      rw [List.append_assoc, dropWhile_token hl hhead' (List.append_ne_nil_of_left_ne_nil hne r),
        rdropWhile_token hr hlast hne]
    · have hlast' : ∀ c ∈ (l ++ t).getLast?, isToken token c = false := by
        rw [List.getLast?_append_of_ne_nil _ hne]
        exact hlast
      rw [rdropWhile_token hr hlast' (List.append_ne_nil_of_right_ne_nil l hne),
        dropWhile_token hl hhead hne]

theorem trimmed_dropWhile (token : StdString) (s : Str) :
    Trimmed token s ((s.dropWhile (isToken token)).rdropWhile (isToken token)) := by
  generalize hu : s.dropWhile (isToken token) = u
  refine ⟨⟨s.takeWhile (isToken token), u.rtakeWhile (isToken token), ?_, ?_, ?_⟩, ?_, ?_⟩
  · rw [List.append_assoc, List.rdropWhile_append_rtakeWhile, ← hu, List.takeWhile_append_dropWhile]
  · exact fun c hc => List.mem_takeWhile_imp hc
  · exact fun c hc => List.mem_rtakeWhile_imp hc
  · intro c hc
    -- the head of what stays is that of the string without its characters in front
    have hhead : u.head? = some c := by
      have hends : u.rdropWhile (isToken token) ++ u.rtakeWhile (isToken token) = u :=
        List.rdropWhile_append_rtakeWhile
      rw [← hends, List.head?_append, hc]
      rfl
    have hnot := List.head?_dropWhile_not (isToken token) s
    rw [hu, hhead] at hnot
    exact hnot
  · intro c hc
    obtain ⟨hne, rfl⟩ := List.mem_getLast?_eq_getLast hc
    exact Bool.eq_false_iff.mpr (List.rdropWhile_last_not (isToken token) u hne)

/-- What is left has nothing more to trim. -/
theorem Trimmed.again (h : Trimmed token s t) : Trimmed token t t :=
  ⟨⟨[], [], (List.append_nil t).symm, nofun, nofun⟩, h.head, h.last⟩

end Trimmed

section Exact

variable (str token : StdString)

theorem ext_bytes {s t : StdString} (h : s.bytes = t.bytes) : s = t := by
  cases s
  cases t
  cases h
  rfl

theorem trim_eq : ∃ t, trim str token = some t
    ∧ t.bytes = (str.bytes.dropWhile (isToken token)).rdropWhile (isToken token)
    ∧ ∃ left, trimLeft str token = some left ∧ trimRight left token = some t := by
  obtain ⟨left, hleft, hleftBytes⟩ := trimLeft_eq str token
  obtain ⟨t, ht, hbytes⟩ := trimRight_eq left token
  refine ⟨t, ?_, ?_, left, hleft, ht⟩
  · show (trimLeft str token).bind (fun left => trimRight left token) = some t
    rw [hleft]
    exact ht
  · rw [hbytes, hleftBytes]

/-- **TRIMMING IS EXACT**: for every string and every set of characters no erase throws; what is
    left is the string without the characters of the set at its two ends, and no other string is;
    the ends may be trimmed in either order; and trimming again changes nothing. -/
theorem trim_exact :
    ∃ t, trim str token = some t
      ∧ (∀ bytes, Trimmed token str.bytes bytes ↔ bytes = t.bytes)
      ∧ (∃ left, trimLeft str token = some left ∧ trimRight left token = some t)
      ∧ (∃ right, trimRight str token = some right ∧ trimLeft right token = some t)
      ∧ trim t token = some t := by
  obtain ⟨t, htrim, hbytes, hleft⟩ := trim_eq str token
  have htrimmed : Trimmed token str.bytes t.bytes := hbytes ▸ trimmed_dropWhile token str.bytes
  refine ⟨t, htrim, fun bytes => ⟨fun h => ?_, ?_⟩, hleft, ?_, ?_⟩
  · rw [hbytes]
    exact h.eq.1.symm
  · rintro rfl
    exact htrimmed
  · obtain ⟨right, hright, hrightBytes⟩ := trimRight_eq str token
    obtain ⟨t', ht', hbytes'⟩ := trimLeft_eq right token
    refine ⟨right, hright, ?_⟩
    rw [ht', ext_bytes (hbytes'.trans ?_)]
    rw [hrightBytes]
    exact htrimmed.eq.2
  · obtain ⟨u, hu, hagain, -⟩ := trim_eq t token
    rw [hu, ext_bytes (hagain.trans htrimmed.again.eq.1)]

end Exact

-- both searches answer `npos`
example : (trim ⟨[32, 32], by decide⟩ ⟨[32], by decide⟩).map StdString.bytes = some [] := by decide

end EasyRpcStringTrim
