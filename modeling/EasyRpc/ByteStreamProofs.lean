/-! # A byte stream — what is read is what was written, in order

    One direction of a connection: a writer appends, a reader takes from the front, and neither
    waits for the other.  A read asks for a fixed number of items and completes once that many are
    there.  What has been taken and what is still on its way are together what has been written
    (`read_spec`), so a reader that knows how the items were framed knows what it holds
    (`prefix_cut`). -/

namespace ByteStream

variable {α : Type}

/-- What the reader has taken, and what is still on its way. -/
structure Stream (α : Type) where
  taken : List α
  pending : List α

namespace Stream

/-- Nothing written. -/
def empty : Stream α := ⟨[], []⟩

/-- All that was written so far. -/
def written (s : Stream α) : List α := s.taken ++ s.pending

/-- What is written is on its way. -/
def write (s : Stream α) (items : List α) : Stream α :=
  { s with pending := s.pending ++ items }

/-- A read of exactly `n` items; `none` while fewer are there. -/
def read (s : Stream α) (n : Nat) : Option ({ items : List α // items.length = n } × Stream α) :=
  if h : n ≤ s.pending.length then
    some (⟨s.pending.take n, by rw [List.length_take, Nat.min_eq_left h]⟩,
      ⟨s.taken ++ s.pending.take n, s.pending.drop n⟩)
  else none

@[simp] theorem taken_write (s : Stream α) (items : List α) :
    (s.write items).taken = s.taken := rfl

@[simp] theorem written_write (s : Stream α) (items : List α) :
    (s.write items).written = s.written ++ items :=
  (List.append_assoc s.taken s.pending items).symm

/-- What was taken was written first. -/
theorem taken_begins (s : Stream α) : s.taken <+: s.written := List.prefix_append _ _

/-- **A READ** hands over the next items, and nothing is lost or made up. -/
theorem read_spec {s s' : Stream α} {n : Nat} {items : { items : List α // items.length = n }}
    (h : s.read n = some (items, s')) :
    s'.taken = s.taken ++ items.val ∧ s'.written = s.written := by
  rw [read] at h
  split at h
  · cases h
    refine ⟨rfl, ?_⟩
    show s.taken ++ s.pending.take n ++ s.pending.drop n = s.taken ++ s.pending
    rw [List.append_assoc, List.take_append_drop]
  · cases h

/-- A read completes once enough is there. -/
theorem read_of_le {s : Stream α} {n : Nat} (h : n ≤ s.pending.length) :
    ∃ items s', s.read n = some (items, s') :=
  ⟨_, _, dif_pos h⟩

/-- What is on its way is what was written and not taken. -/
theorem pending_of_taken {s : Stream α} {front back : List α} (htaken : s.taken = front)
    (hwritten : s.written = front ++ back) : s.pending = back := by
  rw [written, htaken] at hwritten
  exact List.append_cancel_left hwritten

end Stream

/-- Two sequences that begin alike and are cut at the same length are cut alike. -/
theorem prefix_cut {a b c d : List α} (h : a ++ b <+: c ++ d) (hlen : a.length = c.length) :
    a = c ∧ b <+: d := by
  obtain ⟨rest, hrest⟩ := h
  rw [List.append_assoc] at hrest
  obtain ⟨hac, hbd⟩ := List.append_inj hrest hlen
  exact ⟨hac, rest, hbd⟩

end ByteStream
