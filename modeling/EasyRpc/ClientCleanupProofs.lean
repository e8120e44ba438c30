import EasyRpc.ClientSessionProofs

/-! # The end of a call — what a client leaves behind

    A call connects, and only then sets up the guard that disconnects; the guard that stops the
    timer is set up in `read`.  Every exit behind the connect therefore closes the socket and
    leaves no wait.  A connect that throws leaves the socket as `boost::asio::connect` does:
    closed where there is no endpoint to try, open after the last endpoint has failed.

    So a call ends clean exactly if it does not fail on an endpoint (`calls_end_clean`). -/

namespace EasyRpcClientCleanup

open Transition EasyRpcAtimer EasyRpcSession

/-- The loop of `boost::asio::connect` over the endpoints, each with its answer: success, and the
    socket as the last attempt leaves it. -/
def tryEndpoints (call : Nat) : List Bool → Socket → Bool × Socket
  | [], socket => (false, socket)
  | true :: _, _ => (true, .connected call)
  | false :: rest, _ => tryEndpoints call rest .unconnected

/-- `session_.connect()`, which closes the socket first. -/
def connectTo (s : Session) (accepts : List Bool) : Session :=
  match tryEndpoints s.calls accepts .closed with
  | (true, socket) => { s with socket := socket, pc := .pack }
  | (false, socket) => { s with socket := socket, pc := .idle }

/-- A step of the client with `connect` opened up: which of the resolved endpoints accept. -/
inductive Act where
  | connect (accepts : List Bool)
  -- any other step
  | session (a : EasyRpcSession.Act)

/-- The steps of a session, with `connect` trying the endpoints it is given. The two outcomes of
    `connect` as a single step are left to `connectTo`. -/
def step (s : Session) : Act → Option Session
  | .connect accepts =>
      match s.pc with
      | .connect => some (connectTo s accepts)
      | _ => none
  | .session a =>
      match s.pc, a with
      | .connect, .callStep _ => none
      | _, _ => s.step a

/-- A session whose connects go through a list of endpoints. -/
def cleanupSystem (timeoutMilli : Nat) : System Session Act where
  start s := s = .create timeoutMilli
  step := step

/-- The socket is closed and no wait of the timer is pending. -/
structure Clean (s : Session) : Prop where
  socket : s.socket = .closed
  waiting : s.timer.waiting = []

/-- The connect of a call fails on every endpoint, and there is one. -/
def FailsOnEndpoint (s : Session) (a : Act) : Prop :=
  s.pc = .connect ∧ ∃ accepts, a = .connect accepts ∧ accepts ≠ []
    ∧ ∀ accepted ∈ accepts, accepted = false

/-! ## The steps -/

/-- Where no endpoint accepts, the socket stays as the last refused one left it: open and
    unconnected, or untouched if there was none. -/
theorem tryEndpoints_fail {call : Nat} {accepts : List Bool}
    (h : ∀ accepted ∈ accepts, accepted = false) (socket : Socket) :
    tryEndpoints call accepts socket
      = (false, if accepts = [] then socket else .unconnected) := by
  induction accepts generalizing socket with
  | nil => rfl
  | cons accepted rest ih =>
      obtain ⟨rfl, hrest⟩ := List.forall_mem_cons.mp h
      rw [tryEndpoints, ih hrest, if_neg (List.cons_ne_nil _ _), ite_self]

/-- Where one accepts, the loop ends at it with the socket connected. -/
theorem tryEndpoints_accept {call : Nat} {accepts : List Bool}
    (h : ¬ ∀ accepted ∈ accepts, accepted = false) (socket : Socket) :
    tryEndpoints call accepts socket = (true, .connected call) := by
  induction accepts generalizing socket with
  | nil => exact absurd nofun h
  | cons accepted rest ih =>
      cases accepted with
      | true => rfl
      | false =>
          refine ih ?_ .unconnected
          intro hrest
          exact h (List.forall_mem_cons.mpr ⟨rfl, hrest⟩)

/-- The steps by their effect: the connects, and the other steps of the session. -/
inductive Moved (s : Session) : Act → Session → Prop where
  | accepts (accepts : List Bool) : s.pc = .connect →
      (¬ ∀ accepted ∈ accepts, accepted = false) →
      Moved s (.connect accepts) { s with socket := .connected s.calls, pc := .pack }
  | fails (accepts : List Bool) : s.pc = .connect → accepts ≠ [] →
      (∀ accepted ∈ accepts, accepted = false) →
      Moved s (.connect accepts) { s with socket := .unconnected, pc := .idle }
  | nowhere : s.pc = .connect →
      Moved s (.connect []) { s with socket := .closed, pc := .idle }
  | session (a : EasyRpcSession.Act) (s' : Session) : Step s a s' →
      (s.pc = .connect → ∀ ok, a ≠ .callStep ok) → Moved s (.session a) s'

/-- **EVERY STEP IS ONE OF THE MOVES**: the executable step read as a relation. -/
theorem moved_of_step {s s' : Session} {a : Act} (h : step s a = some s') : Moved s a s' := by
  unfold step at h
  cases a with
  | connect accepts =>
      dsimp only at h
      split at h
      · rename_i hpc
        cases h
        rw [connectTo]
        by_cases hall : ∀ accepted ∈ accepts, accepted = false
        · rw [tryEndpoints_fail hall]
          by_cases hnil : accepts = []
          · subst hnil
            exact .nowhere hpc
          · rw [if_neg hnil]
            exact .fails accepts hpc hnil hall
        · rw [tryEndpoints_accept hall]
          exact .accepts accepts hpc hall
      · exact nomatch h
  | session a =>
      dsimp only at h
      split at h
      · exact nomatch h
      · rename_i hno
        refine .session _ s' (step_cases h) ?_
        intro hpc ok ha
        exact hno ok hpc ha

/-- The session's invariant survives each move, the connect over a list included. -/
theorem moved_inv {s s' : Session} {a : Act} (hI : SessionInv s) (h : Moved s a s') :
    SessionInv s' := by
  cases h with
  | accepts accepts hpc => exact hI.step (.connects hpc)
  | fails accepts hpc => exact hI.step (.connectFails hpc)
  | nowhere hpc =>
      have hfails : SessionInv { s with socket := .unconnected, pc := .idle } :=
        hI.step (.connectFails hpc)
      exact hfails.mono rfl (fun _ hk => hk) rfl rfl nofun (fun _ hk => hk) hfails.shot
  | session a s' hs => exact hI.step hs

/-- The session's invariant holds in every reachable state of this system. -/
theorem sessionInv_of_reaches {timeoutMilli : Nat} {ok : Session → Act → Prop} {s : Session}
    (h : Reaches (cleanupSystem timeoutMilli) ok s) : SessionInv s := by
  refine h.invariant ?_ ?_
  · rintro s rfl
    refine ⟨fun _ => rfl, nofun, nofun, ?_, ?_⟩
    · rintro k (hk | hk | ⟨left, hk⟩) <;> exact nomatch hk
    · rintro k (hk | hk | ⟨left, hk⟩) <;> exact nomatch hk
  · intro s a s' hI _ hs
    exact moved_inv hI (moved_of_step hs)

/-! ## The end of a call -/

/-- Behind the connect a call ends by disconnecting. -/
theorem session_end {s s' : Session} {a : EasyRpcSession.Act} (hs : Step s a s')
    (hother : s.pc = .connect → ∀ ok, a ≠ .callStep ok) (hbusy : s.pc ≠ .idle)
    (hidle : s'.pc = .idle) : s'.socket = .closed := by
  cases hs with
  | calls hpc => exact absurd hpc hbusy
  | connects hpc => exact nomatch hidle
  | connectFails hpc => exact absurd rfl (hother hpc false)
  | moves ok pc hm =>
      have hguarded := hm.guarded
      rw [show pc = .idle from hidle] at hguarded
      exact nomatch hguarded
  | startsTimer => exact nomatch hidle
  | stopsTimer ok ok' =>
      cases ok' with
      | true | false => exact nomatch hidle
  | disconnects ok hpc =>
      rw [Session.disconnect_eq]
      rfl
  | expires | takesAborted | takes | closes | closesNothing | ends => exact absurd hidle hbusy

/-- **THE END OF A CALL**: a step that ends the call leaves it clean exactly if it is not a failed
    connect that had an endpoint to try. One case per move. -/
theorem clean_iff {s s' : Session} {a : Act} (hI : SessionInv s) (h : Moved s a s')
    (hbusy : s.pc ≠ .idle) (hidle : s'.pc = .idle) : Clean s' ↔ ¬ FailsOnEndpoint s a := by
  have hnone : s'.timer.waiting = [] := (moved_inv hI h).waiting_nil (by rw [hidle]; rfl)
  cases h with
  | accepts => exact nomatch hidle
  | fails accepts hpc hne hall =>
      exact iff_of_false (fun hclean => nomatch hclean.socket)
        (not_not_intro ⟨hpc, accepts, rfl, hne, hall⟩)
  | nowhere hpc =>
      refine iff_of_true ⟨rfl, hnone⟩ ?_
      rintro ⟨-, accepts, heq, hne, -⟩
      cases heq
      exact hne rfl
  | session a s' hs hother =>
      refine iff_of_true ⟨session_end hs hother hbusy hidle, hnone⟩ ?_
      rintro ⟨-, accepts, heq, -⟩
      exact nomatch heq

/-! ## Runs in which no connect fails on an endpoint -/

/-- Without its guard a call has no open socket. -/
def ClosedUnguarded (s : Session) : Prop := s.pc.guarded = false → s.socket = .closed

/-- Every step but a failed connect with endpoints keeps the socket closed outside of the calls.
    -/
theorem ClosedUnguarded.step {s s' : Session} {a : Act} (h : ClosedUnguarded s)
    (hok : ¬ FailsOnEndpoint s a) (hs : Moved s a s') : ClosedUnguarded s' := by
  cases hs with
  | accepts => exact nofun
  | fails accepts hpc hne hall => exact absurd ⟨hpc, accepts, rfl, hne, hall⟩ hok
  | nowhere => exact fun _ => rfl
  | session a s' hs hother =>
      cases hs with
      | calls hpc =>
          intro _
          exact h (by rw [hpc]; rfl)
      | connects => exact nofun
      | connectFails hpc => exact absurd rfl (hother hpc false)
      | moves ok pc hm =>
          intro hno
          have hguarded := hm.guarded
          rw [show pc.guarded = false from hno] at hguarded
          exact nomatch hguarded
      | startsTimer => exact nofun
      | stopsTimer ok ok' =>
          cases ok' with
          | true | false => exact nofun
      | disconnects =>
          intro _
          rw [Session.disconnect_eq]
          rfl
      | expires | takesAborted | takes | ends => exact h
      | closes | closesNothing => exact fun _ => rfl

/-- In every run without such a failed connect, the socket is closed outside of the calls. -/
theorem closedUnguarded_of_reaches {timeoutMilli : Nat} {s : Session}
    (h : Reaches (cleanupSystem timeoutMilli) (fun s a => ¬ FailsOnEndpoint s a) s) :
    ClosedUnguarded s := by
  refine h.invariant ?_ ?_
  · rintro s rfl _
    rfl
  · intro s a s' hI hok hs
    exact hI.step hok (moved_of_step hs)

/-- **CALLS END CLEAN**: in every run in which no connect fails on an endpoint, the client is
    clean between its calls; and in any run a call ends clean exactly if its own connect does not
    fail on one. -/
theorem calls_end_clean (timeoutMilli : Nat) :
    (∀ s, Reaches (cleanupSystem timeoutMilli) (fun s a => ¬ FailsOnEndpoint s a) s →
      s.pc = .idle → Clean s)
    ∧ ∀ s a s', Reachable (cleanupSystem timeoutMilli) s → s.pc ≠ .idle → step s a = some s' →
        s'.pc = .idle → (Clean s' ↔ ¬ FailsOnEndpoint s a) := by
  constructor
  · intro s h hidle
    have hguarded : s.pc.guarded = false := by rw [hidle]; rfl
    have htimed : s.pc.timed = false := by rw [hidle]; rfl
    exact ⟨closedUnguarded_of_reaches h hguarded, (sessionInv_of_reaches h).waiting_nil htimed⟩
  · intro s a s' hr hbusy hs hidle
    exact clean_iff (sessionInv_of_reaches hr) (moved_of_step hs) hbusy hidle

/-- A call whose first endpoint refuses and whose second accepts: it reads its response under its
    timer, stops the timer and disconnects. -/
def callOnSecondEndpoint : List Act :=
  [.session .call, .connect [false, true]] ++ List.replicate 9 (.session (.callStep true))

/-- A call that reads its response ends clean; one that fails on both its endpoints does not. -/
theorem calls_end_clean_at_3000 :
    (∃ s, exec (cleanupSystem 3000) (.create 3000) callOnSecondEndpoint = some s
      ∧ s.pc = .idle ∧ s.timer.funcVec.length = 1 ∧ Clean s)
    ∧ ∃ s, exec (cleanupSystem 3000) (.create 3000) [.session .call, .connect [false, false]]
        = some s ∧ ¬ Clean s := by
  have hstart : Reaches (cleanupSystem 3000) (fun s a => ¬ FailsOnEndpoint s a) (.create 3000) :=
    Reaches.start rfl
  have hcall := hstart.step (a := Act.session .call) (fun h => nomatch h.1) rfl
  constructor
  · have hconnect := hcall.step (a := Act.connect [false, true])
      (by rintro ⟨-, -, ⟨⟩, -, hall⟩; cases hall true (by decide)) rfl
    have hsession : ∀ a ∈ List.replicate 9 (Act.session (.callStep true)), ∀ s,
        ¬ FailsOnEndpoint s a := by
      rintro a ha s ⟨-, accepts, rfl, -⟩
      cases List.eq_of_mem_replicate ha
    have hend := Reaches.exec hsession hconnect
      (show exec (cleanupSystem 3000) _ (List.replicate 9 (.session (.callStep true))) = some _
        from rfl)
    exact ⟨_, rfl, rfl, rfl, (calls_end_clean 3000).1 _ hend rfl⟩
  · refine ⟨_, rfl, ?_⟩
    have hend := (calls_end_clean 3000).2 _ (.connect [false, false]) _
      (hcall.mono fun _ _ _ => trivial) nofun rfl rfl
    exact fun hclean => hend.mp hclean ⟨rfl, [false, false], rfl, nofun, by decide⟩

/-- The call fails on its only endpoint, and the socket stays open. -/
theorem failed_connect_leaves_socket_open :
    ∃ s, exec (cleanupSystem 0) (.create 0) [.session .call, .connect [false]] = some s
      ∧ s.pc = .idle ∧ s.socket = .unconnected ∧ ¬ Clean s := by
  refine ⟨_, rfl, rfl, rfl, ?_⟩
  intro hclean
  exact nomatch hclean.socket

end EasyRpcClientCleanup
