import EasyRpc.ConnectionReleaseProofs
import EasyRpc.PotentialProofs

/-! # A client that sends no more — how long its connection keeps the server

    A connection whose request is not complete waits for bytes that may never come, and its read
    ends by itself only once the socket has been closed.  The one wait that `start` has registered
    is on the timer, or has expired and is queued, until the reads are over; so under a timeout
    the socket is closed, and the handlers that are left give the request up, in six events at
    most.  Without a timeout nothing ever happens (`silent_clients_are_dropped`). -/

namespace EasyRpcSilentClient

open Transition Potential EasyRpcAtimer EasyRpcWire EasyRpcConnection EasyRpcConnectionRelease

/-- The events that happen where the client sends nothing and the socket has no error of its own: a
    read completes only with an error, and only on a socket that has been closed. -/
def silent (s : ConnState) : Act → Bool
  | .headRead result => result.isNone && !s.conn.isOpen
  | .bodyRead result => result.isNone && !s.conn.isOpen
  | _ => true

/-- The request has not been read whole. -/
def unfinished : Reading → Bool
  | .head => true
  | .headDone _ => true
  | .body => true
  | .bodyDone ec => ec
  | _ => false

/-! ## The one wait -/

/-- An open connection has an expiry to come as long as it reads, and never more than one. -/
structure Watched (c : Connection) : Prop where
  expiry : c.reading ≠ .idle → c.reading ≠ .routing → c.isOpen = true →
    c.timer.waiting ≠ [] ∨ c.timer.Fired
  one : c.timer.waiting.length + c.timer.ready.length ≤ 1

/-- `stop_timer` turns pending waits into queued handlers and loses none. -/
theorem stopTimer_count (c : Connection) :
    c.stopTimer.timer.waiting.length + c.stopTimer.timer.ready.length
      = c.timer.waiting.length + c.timer.ready.length := by
  rw [Connection.stopTimer]
  split
  · rfl
  · show 0 + (c.timer.ready ++ c.timer.waiting.map fun w => (w, true)).length = _
    rw [List.length_append, List.length_map]
    omega

theorem dequeue_count {t : Atimer Nat TimerFunc} {n : Nat} {w : Nat × Bool}
    (hn : t.ready[n]? = some w) : (t.dequeue n).ready.length + 1 = t.ready.length :=
  List.length_eraseIdx_add_one (List.getElem?_eq_some_iff.mp hn).1

/-- A closed connection needs no expiry. -/
theorem Watched.of_closed {c : Connection} (hclosed : c.isOpen = false)
    (hone : c.timer.waiting.length + c.timer.ready.length ≤ 1) : Watched c := by
  refine ⟨fun _ _ hopen => ?_, hone⟩
  rw [hclosed] at hopen
  cases hopen

theorem Watched.disconnect {c : Connection} (h : Watched c) : Watched c.disconnect := by
  refine .of_closed c.disconnect_isOpen ?_
  rw [c.disconnect_timer]
  exact h.one

/-- What a handler does that gives the request up. -/
theorem Watched.gives_up {c : Connection} (h : Watched c) :
    Watched (c.stopTimer.disconnect.setReading .idle) := by
  refine ⟨fun hno => absurd rfl hno, ?_⟩
  rw [Connection.setReading_timer, Connection.disconnect_timer, stopTimer_count]
  exact h.one

section Moves

variable {timeoutMilli : Nat} {s t : ConnState} {a : Act}

/-- Under a timeout no handler starts the timer again. -/
theorem rearm_dequeue (htimeout : timeoutMilli ≠ 0) (hT : TimerInv timeoutMilli s.conn)
    (n duration : Nat) : (s.conn.timer.dequeue n).rearm duration = s.conn.timer.dequeue n :=
  Atimer.rearm_of_singleShot (t := s.conn.timer.dequeue n) (hT.bound htimeout).2 duration

/-- **THE STEP LEMMA**: a connection still reading stays watched by its one wait. -/
theorem Watched.moves (htimeout : timeoutMilli ≠ 0) (hT : TimerInv timeoutMilli s.conn)
    (h : Watched s.conn) (hm : Moves s a t) : Watched t.conn := by
  have hone := h.one
  cases hm with
  | headFails hr | headArrives _ hr | headAccepted _ hr | bodyFails hr | bodyArrives _ hr =>
      exact ⟨fun _ _ hopen => h.expiry (by rw [hr]; nofun) (by rw [hr]; nofun) hopen, hone⟩
  | headRefused ec reqHead hr =>
      have hset : Watched (s.conn.setReqHead reqHead) := ⟨h.expiry, hone⟩
      exact hset.gives_up
  | bodyRefused ec bound hr => exact h.gives_up
  | bodyUnbound hr hopen =>
      refine ⟨fun hno => absurd rfl hno, ?_⟩
      rw [Connection.routeReturned, if_neg Bool.false_ne_true, Connection.setReading_timer,
        Connection.disconnect_timer, Connection.setReading_timer, stopTimer_count]
      exact hone
  | bodyRoutes hr hopen =>
      refine ⟨fun _ hno => absurd rfl hno, ?_⟩
      rw [Connection.setReading_timer, stopTimer_count]
      exact hone
  | enqueues | pops | drops | clears => exact h
  | routeReturns => exact ⟨fun hno => absurd rfl hno, hone⟩
  | fails => exact h.disconnect
  | answers body remains ec c htask hw =>
      obtain ⟨-, -, rfl⟩ := Connection.write_ok hw
      exact ⟨h.expiry, hone⟩
  | expires hw =>
      refine ⟨fun _ _ _ => Or.inr ?_, ?_⟩
      · obtain ⟨k, hk⟩ := List.exists_mem_of_ne_nil _ hw
        exact ⟨k, List.mem_append_right _ (List.mem_map_of_mem hk)⟩
      · show 0 + (s.conn.timer.ready ++ s.conn.timer.waiting.map fun w => (w, false)).length ≤ 1
        rw [List.length_append, List.length_map]
        omega
  | aborted n duration hn =>
      have hcount := dequeue_count hn
      refine ⟨fun hidle hrouting hopen => ?_, ?_⟩
      · exact (h.expiry hidle hrouting hopen).imp_right (Atimer.fired_dequeue_aborted hn).mpr
      · show s.conn.timer.waiting.length + (s.conn.timer.dequeue n).ready.length ≤ 1
        omega
  | fires n duration hn hf =>
      have hcount := dequeue_count hn
      rw [rearm_dequeue htimeout hT]
      refine .of_closed s.conn.disconnect_isOpen ?_
      show s.conn.timer.waiting.length + (s.conn.timer.dequeue n).ready.length ≤ 1
      omega
  | firesIdly n duration hn hf =>
      rw [(hT.bound htimeout).1] at hf
      cases hf

/-- A connection under a timeout is owned by its callback for good. -/
theorem settle_timed (htimeout : timeoutMilli ≠ 0) (hT : TimerInv timeoutMilli s.conn) :
    s.settle = s := by
  refine settle_of_owned (owners_pos ?_)
  rw [(hT.bound htimeout).1]
  exact List.cons_ne_nil _ _

/-- With a timeout, every reachable connection is watched. -/
theorem watched_of_reachable (htimeout : timeoutMilli ≠ 0)
    (h : Reachable (connSystem timeoutMilli) s) : Watched s.conn := by
  refine h.invariant_of (J := OwnerInv timeoutMilli) (I := fun s => Watched s.conn)
    (fun _ hr => ownerInv_of_reaches hr) ?_ ?_
  · rintro s rfl
    have hne : ¬ (timeoutMilli == 0) = true := mt beq_iff_eq.mp htimeout
    show Watched (Connection.create timeoutMilli).readHead
    rw [Connection.readHead, Connection.startTimer]
    show Watched ((if timeoutMilli == 0 then _ else _ : Connection).setReading .head)
    rw [if_neg hne]
    exact ⟨fun _ _ _ => Or.inl (List.cons_ne_nil _ _), Nat.le_refl 1⟩
  · intro s a s' hO hI _ hs
    obtain ⟨t, hm, rfl⟩ := step_cases hs
    rw [settle_timed htimeout (hO.timer.moves hm)]
    exact hI.moves htimeout hO.timer hm

end Moves

/-! ## Silence -/

/-- The request is not complete, or has been given up. -/
structure Stalled (timeoutMilli : Nat) (s : ConnState) : Prop where
  timer : TimerInv timeoutMilli s.conn
  watched : Watched s.conn
  task : s.task = .none
  unread : unfinished s.conn.reading = true ∨ (s.conn.reading = .idle ∧ s.conn.isOpen = false)

/-- How many steps the read chain has before it. -/
def readingLeft : Reading → Nat
  | .head => 4
  | .headDone _ => 3
  | .body => 2
  | .bodyDone _ => 1
  | _ => 0

theorem readingLeft_le (reading : Reading) : readingLeft reading ≤ 4 := by
  unfold readingLeft
  split <;> omega

/-- What a connection can still do when its client sends nothing. -/
def stallPotential (s : ConnState) : Nat :=
  readingLeft s.conn.reading + 2 * s.conn.timer.waiting.length + s.conn.timer.ready.length

theorem stopTimer_left (c : Connection) :
    2 * c.stopTimer.timer.waiting.length + c.stopTimer.timer.ready.length
      ≤ 2 * c.timer.waiting.length + c.timer.ready.length := by
  rw [Connection.stopTimer]
  split
  · exact Nat.le_refl _
  · show 2 * 0 + (c.timer.ready ++ c.timer.waiting.map fun w => (w, true)).length ≤ _
    rw [List.length_append, List.length_map]
    omega

section Stall

variable {timeoutMilli : Nat} {s s' t : ConnState} {a : Act}

/-- **WHAT IS LEFT TO HAPPEN** to a connection whose client is silent. -/
theorem stalled_moves (htimeout : timeoutMilli ≠ 0) (h : Stalled timeoutMilli s)
    (ha : silent s a = true) (hm : Moves s a t) :
    Stalled timeoutMilli t ∧ stallPotential t + 1 ≤ stallPotential s := by
  have hT := h.timer.moves hm
  have hW := h.watched.moves htimeout h.timer hm
  have htask := h.task
  have hreads : ∀ r, s.conn.reading = r → unfinished r = true ∨ r = .idle := by
    rintro r rfl
    exact h.unread.imp_right And.left
  cases hm with
  | headArrives | bodyArrives => cases ha
  | pops h' | fails _ _ _ h' | answers _ _ _ _ h' | drops h' | clears h' =>
      rw [htask] at h'
      cases h'
  | bodyUnbound hr | bodyRoutes hr | enqueues hr | routeReturns hr =>
      rcases hreads _ hr with h' | h' <;> cases h'
  | headFails hr | headAccepted _ hr | bodyFails hr =>
      refine ⟨⟨hT, hW, htask, Or.inl rfl⟩, ?_⟩
      simp only [stallPotential, Connection.setReading, Connection.setReqHead,
        Connection.readProtocolAndBody, hr, readingLeft]
      omega
  | headRefused ec reqHead hr =>
      refine ⟨⟨hT, hW, htask, Or.inr ⟨rfl, Connection.disconnect_isOpen _⟩⟩, ?_⟩
      have hleft := stopTimer_left (s.conn.setReqHead reqHead)
      simp only [stallPotential, Connection.setReading_timer, Connection.disconnect_timer,
        Connection.setReading_reading, hr, readingLeft]
      simp only [Connection.setReqHead] at hleft ⊢
      omega
  | bodyRefused ec bound hr =>
      refine ⟨⟨hT, hW, htask, Or.inr ⟨rfl, Connection.disconnect_isOpen _⟩⟩, ?_⟩
      have hleft := stopTimer_left s.conn
      simp only [stallPotential, Connection.setReading_timer, Connection.disconnect_timer,
        Connection.setReading_reading, hr, readingLeft]
      omega
  | expires hw =>
      refine ⟨⟨hT, hW, htask, h.unread⟩, ?_⟩
      have hsome := List.length_pos_iff.mpr hw
      simp only [stallPotential, Connection.setTimer, Atimer.expire, List.length_append,
        List.length_map, List.length_nil]
      omega
  | aborted n duration hn =>
      refine ⟨⟨hT, hW, htask, h.unread⟩, ?_⟩
      have hcount := dequeue_count hn
      simp only [stallPotential, Connection.setTimer, Atimer.dequeue_waiting]
      omega
  | fires n duration hn hf =>
      rw [rearm_dequeue htimeout h.timer] at hT hW ⊢
      have hcount := dequeue_count hn
      refine ⟨⟨hT, hW, htask, ?_⟩, ?_⟩
      · rw [Connection.setTimer_reading, Connection.disconnect_reading]
        exact h.unread.imp_right fun hidle => ⟨hidle.1, Connection.disconnect_isOpen _⟩
      · simp only [stallPotential, Connection.setTimer_timer, Connection.setTimer_reading,
          Connection.disconnect_reading, Atimer.dequeue_waiting]
        omega
  | firesIdly n duration hn hf =>
      rw [(h.timer.bound htimeout).1] at hf
      cases hf

/-- **EVERY STEP WITH A SILENT CLIENT IS PAID FOR**. -/
theorem stalled_pays (htimeout : timeoutMilli ≠ 0) :
    PaysOn (Stalled timeoutMilli) (only silent (connSystem timeoutMilli)) stallPotential
      fun _ => 0 := by
  intro s a s' h hs
  obtain ⟨ha, hs⟩ := step_only.mp hs
  obtain ⟨t, hm, rfl⟩ := step_cases hs
  obtain ⟨ht, hpays⟩ := stalled_moves htimeout h ha hm
  rw [settle_timed htimeout ht.timer]
  exact ⟨ht, hpays⟩

theorem apply_at_rest (h : Rests silent (connSystem timeoutMilli) s) (a : Act)
    (ha : silent s a = true) : s.apply a = none :=
  Option.map_eq_none_iff.mp (h a ha)

/-- At rest no expiry is to come. -/
theorem unwatched_at_rest (h : Rests silent (connSystem timeoutMilli) s) :
    s.conn.timer.waiting = [] ∧ ¬ s.conn.timer.Fired := by
  constructor
  · by_contra hw
    have hexpire := apply_at_rest h .expire rfl
    rw [ConnState.apply, if_pos hw] at hexpire
    cases hexpire
  · rintro ⟨duration, hmem⟩
    obtain ⟨n, hn⟩ := List.mem_iff_getElem?.mp hmem
    have htake := Option.map_eq_none_iff.mp (apply_at_rest h (.timerHandler n) rfl)
    rw [Connection.timerHandler, hn] at htake
    cases htake

/-- **AT REST THE REQUEST HAS BEEN GIVEN UP**. -/
theorem given_up_at_rest (hS : Stalled timeoutMilli s)
    (h : Rests silent (connSystem timeoutMilli) s) :
    s.conn.reading = .idle ∧ s.conn.isOpen = false := by
  rcases hS.unread with hun | hidle
  · exfalso
    have hclosed : s.conn.reading ≠ .idle → s.conn.reading ≠ .routing →
        s.conn.isOpen = false := by
      intro hidle hrouting
      obtain ⟨hw, hf⟩ := unwatched_at_rest h
      rw [← Bool.not_eq_true]
      intro hopen
      exact (hS.watched.expiry hidle hrouting hopen).elim (fun h' => h' hw) hf
    cases hr : s.conn.reading with
    | idle | routing =>
        rw [hr] at hun
        cases hun
    | head =>
        have hno := hclosed (by rw [hr]; nofun) (by rw [hr]; nofun)
        have hread := Option.map_eq_none_iff.mp
          (apply_at_rest h (.headRead none) (by rw [silent, hno]; rfl))
        unfold Connection.headRead at hread
        rw [hr] at hread
        cases hread
    | body =>
        have hno := hclosed (by rw [hr]; nofun) (by rw [hr]; nofun)
        have hread := Option.map_eq_none_iff.mp
          (apply_at_rest h (.bodyRead none) (by rw [silent, hno]; rfl))
        unfold Connection.bodyRead at hread
        rw [hr] at hread
        cases hread
    | headDone ec =>
        have hhandler := Option.map_eq_none_iff.mp (apply_at_rest h .headHandler rfl)
        have hno := hclosed (by rw [hr]; nofun) (by rw [hr]; nofun)
        simp only [Connection.headHandler, hr, hno, Bool.not_false, if_true] at hhandler
        cases hhandler
    | bodyDone ec =>
        have hhandler := Option.map_eq_none_iff.mp (apply_at_rest h (.bodyHandler true) rfl)
        have hno := hclosed (by rw [hr]; nofun) (by rw [hr]; nofun)
        simp only [Connection.bodyHandler, hr, Connection.stopTimer_isOpen, hno, Bool.not_false,
          if_true] at hhandler
        cases hhandler
  · exact hidle

/-- Without a timeout nothing closes the socket under an outstanding read. -/
theorem rests_without_timeout (hT : TimerInv 0 s.conn) (htask : s.task = .none)
    (hr : s.conn.reading = .head ∨ s.conn.reading = .body) (hopen : s.conn.isOpen = true) :
    Rests silent (connSystem 0) s := by
  obtain ⟨hw, hready, -⟩ := hT.unused rfl
  intro a ha
  show (s.apply a).map ConnState.settle = none
  rw [Option.map_eq_none_iff]
  by_contra hne
  obtain ⟨t, ht⟩ := Option.ne_none_iff_exists'.mp hne
  obtain ⟨u, hm, -⟩ := step_cases (s := s) (a := a) (congrArg (Option.map ConnState.settle) ht)
  cases hm with
  | headFails hr' | bodyFails hr' =>
      rw [silent, hopen] at ha
      cases ha
  | headArrives | bodyArrives => cases ha
  | headRefused _ _ hr' | headAccepted _ hr' | bodyRefused _ _ hr' | bodyUnbound hr'
  | bodyRoutes hr' | enqueues hr' | routeReturns hr' =>
      rw [hr'] at hr
      rcases hr with hr | hr <;> cases hr
  | pops h' | fails _ _ _ h' | answers _ _ _ _ h' | drops h' | clears h' =>
      rw [htask] at h'
      cases h'
  | expires hw' => exact hw' hw
  | aborted n duration hn | fires n duration hn | firesIdly n duration hn =>
      rw [hready] at hn
      cases hn

/-- **SILENT CLIENTS ARE DROPPED**: a connection whose request is not complete, and whose client
    sends no more, takes six events at most, in whatever order; it routes nothing, and can stop
    nowhere but with its reads over and its socket closed, and it does stop, if the server has a
    timeout.  Without one a read on an open socket waits for ever. -/
theorem silent_clients_are_dropped (h : Reachable (connSystem timeoutMilli) s)
    (hun : unfinished s.conn.reading = true) :
    (timeoutMilli ≠ 0 →
      (∀ as s', exec (only silent (connSystem timeoutMilli)) s as = some s' →
        as.length ≤ 6 ∧ s'.task = .none
        ∧ (Rests silent (connSystem timeoutMilli) s' →
          s'.conn.reading = .idle ∧ s'.conn.isOpen = false))
      ∧ ∃ as s', exec (only silent (connSystem timeoutMilli)) s as = some s'
          ∧ Rests silent (connSystem timeoutMilli) s')
    ∧ (timeoutMilli = 0 → s.conn.reading = .head ∨ s.conn.reading = .body →
        s.conn.isOpen = true → Rests silent (connSystem timeoutMilli) s) := by
  have hT := (ownerInv_of_reaches h).timer
  have htask : s.task = .none := by
    by_contra hne
    rcases readsOver_of_reaches h hne with hr | hr <;> rw [hr] at hun <;> cases hun
  refine ⟨fun htimeout => ?_, ?_⟩
  · have hS : Stalled timeoutMilli s :=
      ⟨hT, watched_of_reachable htimeout h, htask, Or.inl hun⟩
    refine ⟨fun as s' hexec => ?_, (stalled_pays htimeout).comes_to_rest hS⟩
    obtain ⟨hS', -⟩ := (stalled_pays htimeout).length_le hS hexec
    refine ⟨?_, hS'.task, given_up_at_rest hS'⟩
    have hlen := (stalled_pays htimeout).length_le_of_zero hS hexec
    have hone := hS.watched.one
    have hreading := readingLeft_le s.conn.reading
    rw [stallPotential] at hlen
    omega
  · rintro rfl hr hopen
    exact rests_without_timeout hT htask hr hopen

end Stall

/-- With 3000 milliseconds a client that has sent half of its request is dropped; without a timeout
    one that has sent nothing is waited for. -/
theorem silent_clients_are_dropped_at_3000 :
    (∃ s s' as, exec (connSystem 3000) (.initial 3000)
        [.headRead (some ⟨[1, 0, 0, 0, 0, 0, 0, 0, 1, 0, 0, 0], rfl⟩), .headHandler] = some s
      ∧ exec (only silent (connSystem 3000)) s as = some s' ∧ as.length ≤ 6
      ∧ s'.conn.isOpen = false)
    ∧ Rests silent (connSystem 0) (.initial 0) := by
  constructor
  · have hexec : exec (connSystem 3000) (.initial 3000)
        [.headRead (some ⟨[1, 0, 0, 0, 0, 0, 0, 0, 1, 0, 0, 0], rfl⟩), .headHandler] = some _ := rfl
    obtain ⟨hruns, as, s', has, hrests⟩ := (silent_clients_are_dropped
      ((Reachable.start rfl).exec hexec) rfl).1 (by decide)
    obtain ⟨hlen, -, hend⟩ := hruns as s' has
    exact ⟨_, s', as, hexec, has, hlen, (hend hrests).2⟩
  · exact (silent_clients_are_dropped (s := .initial 0) (Reachable.start rfl) rfl).2 rfl
      (Or.inl rfl) rfl

end EasyRpcSilentClient
