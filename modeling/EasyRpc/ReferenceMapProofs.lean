/-! # Maps whose entries have an identity

    A map hands out references to its entries.  A reference stays valid as long as its own entry
    is not erased, whatever happens to the others; an entry that is overwritten keeps its
    identity, so the reference then sees the new value; an entry erased and inserted again is a
    new one, which no older reference reaches. -/

namespace ReferenceMap

variable {K V : Type}

/-- A node of the map, with an identity that no other node ever has. -/
structure Node (V : Type) where
  id : Nat
  value : V

/-- A map from keys to nodes, whose identities are below `next`. -/
structure RefMap (K V : Type) where
  find : K → Option (Node V)
  next : Nat
  fresh : ∀ k node, find k = some node → node.id < next

/-- A reference to an entry. -/
structure Ref (K : Type) where
  key : K
  id : Nat
  deriving DecidableEq

namespace RefMap

/-- The empty map. -/
def empty : RefMap K V := ⟨fun _ => none, 0, nofun⟩

/-- The value a reference sees, if its entry still exists. -/
def deref (m : RefMap K V) (r : Ref K) : Option V :=
  match m.find r.key with
  | some node => if node.id = r.id then some node.value else none
  | none => none

/-- The node that `assign` leaves under a key. -/
def assigned (m : RefMap K V) (k : K) (v : V) : Node V :=
  match m.find k with
  | some node => { node with value := v }
  | none => ⟨m.next, v⟩

/-- The identity of an assigned node has been given out. -/
theorem assigned_id_lt (m : RefMap K V) (k : K) (v : V) : (m.assigned k v).id < m.next + 1 := by
  rw [assigned]
  split
  · rename_i node h
    exact Nat.lt_succ_of_lt (m.fresh k node h)
  · exact Nat.lt_succ_self _

theorem deref_of_find {m : RefMap K V} {k : K} {node : Node V} (h : m.find k = some node) :
    m.deref ⟨k, node.id⟩ = some node.value := by
  rw [deref, h]
  exact if_pos rfl

/-- A reference that sees a value is the current reference of its key. -/
theorem find_of_deref {m : RefMap K V} {r : Ref K} {v : V} (h : m.deref r = some v) :
    m.find r.key = some ⟨r.id, v⟩ := by
  rw [deref] at h
  split at h
  · rename_i node hf
    split at h
    · rename_i hid
      cases h
      rw [hf, ← hid]
    · cases h
  · cases h

variable [DecidableEq K]

/-- Overwrite the entry of a key in place, or insert a new one. -/
def assign (m : RefMap K V) (k : K) (v : V) : RefMap K V where
  find k' := if k' = k then some (m.assigned k v) else m.find k'
  next := m.next + 1
  fresh := by
    intro k' node h
    split at h
    · cases h
      exact m.assigned_id_lt k v
    · exact Nat.lt_succ_of_lt (m.fresh k' node h)

/-- `erase`: the node goes, and its identity is not given out again. -/
def erase (m : RefMap K V) (k : K) : RefMap K V where
  find k' := if k' = k then none else m.find k'
  next := m.next
  fresh := by
    intro k' node h
    split at h
    · cases h
    · exact m.fresh k' node h

/-- **STABILITY**: references to other entries are untouched. -/
theorem deref_assign_ne (m : RefMap K V) {r : Ref K} {k : K} (h : r.key ≠ k) (v : V) :
    (m.assign k v).deref r = m.deref r := by
  have hfind : (m.assign k v).find r.key = m.find r.key := if_neg h
  rw [deref, deref, hfind]

/-- Erasing one key leaves the references to all others. -/
theorem deref_erase_ne (m : RefMap K V) {r : Ref K} {k : K} (h : r.key ≠ k) :
    (m.erase k).deref r = m.deref r := by
  have hfind : (m.erase k).find r.key = m.find r.key := if_neg h
  rw [deref, deref, hfind]

/-- A live reference to an overwritten entry sees the new value. -/
theorem deref_assign_self {m : RefMap K V} {r : Ref K} {v : V} (h : m.deref r = some v)
    (v' : V) : (m.assign r.key v').deref r = some v' := by
  have hfind : (m.assign r.key v').find r.key = some ⟨r.id, v'⟩ := by
    show (if r.key = r.key then some (m.assigned r.key v') else _) = _
    rw [if_pos rfl, assigned, find_of_deref h]
  exact deref_of_find hfind

/-- No reference reaches an erased entry. -/
theorem deref_erase_self (m : RefMap K V) (r : Ref K) : (m.erase r.key).deref r = none := by
  have hfind : (m.erase r.key).find r.key = none := if_pos rfl
  rw [deref, hfind]

end RefMap

end ReferenceMap
