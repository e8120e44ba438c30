import EasyRpc.RemoteProgressProofs
import EasyRpc.SharedClientProofs

/-! # Calls through a shared client come to an end

    A thread that waits for the mutex waits for one that waits for the network, and the network
    comes to rest only with that thread's call ended.  So the threads of a shared client come to
    rest only with every call ended and the mutex free (`shared_calls_end`): no exit from a call
    leaves the mutex taken.

    A call through the client is paid for like one of the network, and the places of its thread
    besides. -/

namespace EasyRpcSharedProgress

open Transition ThreadTable Potential ByteStream EasyRpcWire EasyRpcDispatch EasyRpcThreadPool
open EasyRpcRoundTrip EasyRpcServer EasyRpcRemoteCall EasyRpcRemoteProgress EasyRpcSharedClient

variable {ep : Easypack} {World : Type}

/-! ## Steps are paid for -/

/-- The steps a thread has before it. -/
@[simp] def placePotential : Place → Nat
  | .idle => 0
  | .lock _ => 27
  | .connect _ => 26
  | .write _ _ => 5
  | .readHead _ _ => 5
  | .checkHead _ _ => 5
  | .readBody _ _ => 4
  | .copyBody _ _ => 3
  | .disconnect _ _ _ => 2
  | .unlock _ => 1

/-- What is still to be done by the threads and by the network. -/
def sharedPotential (s : SharedClient ep World) : Nat :=
  (s.threads.map placePotential).sum + networkPotential s.net

/-- What an act brings in: a new call, an expiry, or what an act of the network brings in. -/
def sharedBrings : EasyRpcSharedClient.Act ep World → Nat
  | .call _ _ => 28
  | .thread _ _ _ => 0
  | .timer => 1
  | .net a => networkBrings a

section Pays

variable {b : Bindings ep World} {s s' : SharedClient ep World} {net net' : Network ep World}
  {client client' : Client} {i : Nat} {remains : Remains requestHeaderLen} {p q : Place}

theorem move_pays (h : Move b net client i remains p net' client' q) :
    placePotential q + networkPotential net' + 1 ≤ placePotential p + networkPotential net := by
  have hpays : ∀ {a : EasyRpcRemoteCall.Act ep World}, net.step b a = some net' →
      networkPotential net' + 1 ≤ networkPotential net + networkBrings a :=
    fun hstep => network_pays b net _ net' hstep
  cases h with
  | locks | unconnected | headRefused | headAccepted | copies | disconnects | unlocks =>
      simp only [placePotential]
      omega
  | connects hstep | tooBig _ hstep | writes _ _ hstep | writeFails _ _ hstep | headFails hstep
  | headReads _ _ _ hstep | bodyFails hstep =>
      have hnet := hpays hstep
      simp only [networkBrings, placePotential] at hnet ⊢
      omega
  | @bodyReads r k k' c body response hsocket hc hread =>
      have hsum := stages_set hc { c with response := response, stage := .returned body.val }
      have hsame := unaccepted_set net k'
        { c with response := response, stage := .returned body.val } net.server
      simp only [networkPotential, stagePotential, placePotential] at hsum hsame ⊢
      omega

/-- **EVERY STEP OF A SHARED CLIENT IS PAID FOR** by its calls and those of the network. -/
theorem shared_pays (b : Bindings ep World) :
    Pays (sharedSystem b) sharedPotential sharedBrings := by
  intro s a s' hs
  cases shared_cases hs with
  | @calls i r hi =>
      have hsum := sum_move placePotential hi (.lock r)
      simp only [sharedPotential, sharedBrings, placePotential] at hsum ⊢
      omega
  | @moves i remains ec p q net' client' hi hmove =>
      have hpays := move_pays hmove
      have hsum := sum_move placePotential hi q
      simp only [sharedPotential, sharedBrings] at hsum ⊢
      omega
  | expires => exact Nat.le_refl _
  | @network a net' _ hstep =>
      have hnet := network_pays b s.net a net' hstep
      simp only [sharedPotential, sharedBrings] at hnet ⊢
      omega

end Pays

/-! ## What the threads do by themselves -/

/-- The errors of a socket that was closed, at this end or at the other. -/
def ioFails (s : SharedClient ep World) (what : String) : Place → Bool
  | .write _ _ => s.client.socket.isNone && what == "Bad file descriptor"
  | .readHead _ k | .readBody _ k =>
      s.client.socket.isNone && what == "Bad file descriptor"
        || what == "End of file" && endOfFile s.net k
  | _ => false

/-- What the threads and the network do without calls, errors and expiries from outside. -/
def ownShared (s : SharedClient ep World) : EasyRpcSharedClient.Act ep World → Bool
  | .call _ _ => false
  | .thread _ _ none => true
  | .thread i _ (some (what, _)) => s.threads[i]?.any (ioFails s what)
  | .timer => false
  | .net a => ownNet s.net a

/-- A call whose lengths do not fit is not made, and no header is overwritten. -/
def fittingShared : EasyRpcSharedClient.Act ep World → Bool
  | .call _ r => r.protocol.length + r.body.length < 2 ^ 32
  | .thread _ remains _ => remains.isKept
  | .net a => fitting a
  | _ => true

/-- A shared client, for calls that fit and headers that last. -/
def fittingSharedSystem (b : Bindings ep World) :
    System (SharedClient ep World) (EasyRpcSharedClient.Act ep World) where
  start := (sharedSystem b).start
  step s a := if fittingShared a then s.step b a else none

/-- What the threads and the network do by themselves brings nothing in. -/
theorem ownShared_brings {s : SharedClient ep World} {a : EasyRpcSharedClient.Act ep World}
    (ha : ownShared s a = true) : sharedBrings a = 0 := by
  cases a with
  | call | timer => cases ha
  | thread => rfl
  | net a => exact ownNet_brings ha

/-- The request of a thread that has not connected yet. -/
def asks : Place → Option Request
  | .lock r => some r
  | .connect r => some r
  | _ => none

/-- What the end of the threads' calls rests on. -/
structure SharedGoing (b : Bindings ep World) (s : SharedClient ep World) : Prop where
  inv : SharedInv s
  going : Going b s.net
  sound : Sound b s.net
  fits : ∀ (i : Nat) p r, s.threads[i]? = some p → asks p = some r →
    r.protocol.length + r.body.length < 2 ^ 32

section Steps

variable {b : Bindings ep World} {s s' : SharedClient ep World} {net net' : Network ep World}
  {client client' : Client} {i : Nat} {remains : Remains requestHeaderLen} {p q : Place}

/-- A thread that has its request still asks for the same. -/
theorem asks_of_move (h : Move b net client i remains p net' client' q) {r : Request}
    (hq : asks q = some r) : asks p = some r := by
  cases h with
  | locks => exact hq
  | unconnected | connects | tooBig | writes | writeFails | headFails | headReads | headRefused
  | headAccepted | bodyFails | bodyReads | copies | disconnects | unlocks => cases hq

/-- A step of the threads is one of the network's calls that fit, or none. -/
theorem SharedGoing.net_step (h : SharedGoing b s) {a : EasyRpcSharedClient.Act ep World}
    (hfit : fittingShared a = true) (hs : SharedStep b s a s') :
    s'.net = s.net ∨ ∃ act, (fittingSystem b).step s.net act = some s'.net := by
  cases hs with
  | calls | expires => exact Or.inl rfl
  | @moves i remains ec p q net' client' hi hmove =>
      refine (hmove.step (h.inv.stands i p hi)).imp_right ?_
      rintro ⟨act, hact, hdoes⟩
      refine ⟨act, Option.ite_none_right_eq_some.mpr ⟨?_, hact⟩⟩
      cases act with
      | connect protocol mode body =>
          replace hdoes : p = .connect ⟨protocol, mode, body⟩ := hdoes
          exact decide_eq_true (h.fits i p ⟨protocol, mode, body⟩ hi (by rw [hdoes]; rfl))
      | write k sent ec =>
          replace hdoes : sent = remains := hdoes
          rw [hdoes]
          exact hfit
      | readHead | readBody => rfl
      | accept | headRead | bodyRead | runHandler | respond | server => cases hdoes
  | network _ hstep => exact Or.inr ⟨_, Option.ite_none_right_eq_some.mpr ⟨hfit, hstep⟩⟩

theorem SharedGoing.step (h : SharedGoing b s) {a : EasyRpcSharedClient.Act ep World}
    (hs : (fittingSharedSystem b).step s a = some s') : SharedGoing b s' := by
  obtain ⟨hfit, hs⟩ := Option.ite_none_right_eq_some.mp hs
  replace hs := shared_cases hs
  have hnet : Going b s'.net ∧ Sound b s'.net := by
    rcases h.net_step hfit hs with heq | ⟨act, hact⟩
    · rw [heq]
      exact ⟨h.going, h.sound⟩
    · exact ⟨h.going.step (Option.ite_none_right_eq_some.mp hact).2, h.sound.step hact⟩
  refine ⟨h.inv.step hs, hnet.1, hnet.2, ?_⟩
  cases hs with
  | calls hi =>
      intro j x r hj hasks
      rcases getElem?_set_some hj with ⟨-, rfl⟩ | ⟨-, hj⟩
      · cases hasks
        exact of_decide_eq_true hfit
      · exact h.fits j x r hj hasks
  | moves hi hmove =>
      intro j x r hj hasks
      rcases getElem?_set_some hj with ⟨-, rfl⟩ | ⟨-, hj⟩
      · exact h.fits _ _ r hi (asks_of_move hmove hasks)
      · exact h.fits j x r hj hasks
  | expires | network => exact h.fits

end Steps

/-! ## A shared client at rest -/

section Rest

variable {b : Bindings ep World} {s : SharedClient ep World} {i : Nat} {p : Place}

/-- At rest no step is left that the client could take by itself. -/
theorem step_of_shared_rests (h : Rests ownShared (fittingSharedSystem b) s)
    {a : EasyRpcSharedClient.Act ep World} (ha : ownShared s a = true)
    (hfit : fittingShared a = true) : s.step b a = none := by
  have hnone : (if fittingShared a then s.step b a else none) = none := h a ha
  rwa [if_pos hfit] at hnone

/-- A thread at rest has no move, and no operation of its own that fails. -/
theorem move_at_rest (h : Rests ownShared (fittingSharedSystem b) s)
    (hi : s.threads[i]? = some p) : s.move b i .kept none p = none := by
  have hnone := step_of_shared_rests h (a := .thread i .kept none) rfl rfl
  simp only [SharedClient.step, hi, Option.map_eq_none_iff] at hnone
  exact hnone

theorem fails_at_rest (h : Rests ownShared (fittingSharedSystem b) s)
    (hi : s.threads[i]? = some p) (what : String) (hfails : ioFails s what p = true) :
    s.move b i .kept (some (what, 0)) p = none := by
  have hown : ownShared s (.thread i .kept (some (what, 0))) = true := by
    rw [ownShared, hi, Option.any_some]
    exact hfails
  have hnone := step_of_shared_rests h hown rfl
  simp only [SharedClient.step, hi, Option.map_eq_none_iff] at hnone
  exact hnone

/-- Nobody is left with a request to write. -/
theorem not_writing (h : Rests ownShared (fittingSharedSystem b) s) (hI : SharedInv s)
    {r : Request} {k : Nat} : s.threads[i]? ≠ some (.write r k) := by
  intro hi
  obtain ⟨⟨c, hc, -, -, -, hstage⟩, halone⟩ := hI.stands i _ hi _ _ _ rfl
  have hwrites : ∀ ec, s.net.step b (.write k .kept ec) ≠ none := by
    intro ec hnone
    simp only [Network.step, Network.onCaller, hc, Caller.write, hstage] at hnone
    split at hnone <;> cases hnone
  have hstuck := move_at_rest h hi
  cases hwrite : RpcSession.write r.protocol r.mode r.body .kept with
  | error what =>
      simp only [SharedClient.move, SharedClient.write, hwrite, Option.map_eq_none_iff] at hstuck
      exact hwrites _ hstuck
  | ok buffers =>
      cases hsocket : s.client.socket with
      | none =>
          have hfails := fails_at_rest h hi "Bad file descriptor" (by
            rw [ioFails, hsocket]
            rfl)
          simp only [SharedClient.move, SharedClient.write, hwrite, hsocket,
            Option.map_eq_none_iff] at hfails
          exact hwrites _ hfails
      | some k' =>
          cases halone _ hsocket
          simp only [SharedClient.move, SharedClient.write, hwrite, hsocket,
            Option.map_eq_none_iff] at hstuck
          exact hwrites _ hstuck

/-- A thread that is left to read has an open socket: on a closed one the read fails. -/
theorem socket_of_reading (h : Rests ownShared (fittingSharedSystem b) s) (hI : SharedInv s)
    {r : Request} {k : Nat} (hi : s.threads[i]? = some p)
    (hp : p = .readHead r k ∨ p = .readBody r k) : s.client.socket = some k := by
  cases hsocket : s.client.socket with
  | none =>
      have hclosed : ioFails s "Bad file descriptor" p = true := by
        rcases hp with rfl | rfl <;>
          (rw [ioFails, hsocket]
           rfl)
      have hfails := fails_at_rest h hi "Bad file descriptor" hclosed
      rcases hp with rfl | rfl
      · obtain ⟨⟨c, hc, -, -, -, hstage⟩, -⟩ := hI.stands i _ hi _ _ _ rfl
        simp only [SharedClient.move, SharedClient.readHead, Network.step, Network.onCaller, hc,
          Caller.readHead, hstage] at hfails
        cases hfails
      · obtain ⟨⟨c, hc, -, -, -, hstage⟩, -⟩ := hI.stands i _ hi _ _ _ rfl
        simp only [SharedClient.move, SharedClient.readBody, Network.step, Network.onCaller, hc,
          Caller.readBody, hstage] at hfails
        cases hfails
  | some k' =>
      rcases hp with rfl | rfl <;>
        (cases (hI.stands i _ hi _ _ _ rfl).2 _ hsocket
         rfl)

/-- The call of a thread that is left to read is stuck in the network too. -/
theorem readHead_stuck (h : Rests ownShared (fittingSharedSystem b) s) (hI : SharedInv s)
    {r : Request} {k : Nat} (hi : s.threads[i]? = some (.readHead r k))
    {a : EasyRpcRemoteCall.Act ep World} (hmover : mover a = some k)
    (hown : ownNet s.net a = true) : s.net.step b a = none := by
  obtain ⟨⟨c, hc, -, -, -, hstage⟩, -⟩ := hI.stands i _ hi _ _ _ rfl
  cases a with
  | connect | accept | headRead | bodyRead | runHandler | respond | server => cases hmover
  | write j remains ec =>
      cases hmover
      simp only [Network.step, Network.onCaller, hc, Caller.write, hstage, Option.map_none]
  | readBody j ec =>
      cases hmover
      simp only [Network.step, Network.onCaller, hc, Caller.readBody, hstage, Option.map_none]
  | readHead j ec =>
      cases hmover
      cases ec with
      | some what =>
          have hfails := fails_at_rest h hi what (Bool.or_eq_true_iff.mpr (Or.inr hown))
          exact Option.map_eq_none_iff.mp hfails
      | none =>
          have hstuck := move_at_rest h hi
          simp only [SharedClient.move, SharedClient.readHead,
            socket_of_reading h hI hi (Or.inl rfl), hc] at hstuck
          split at hstuck
          · rename_i hread
            simp only [Network.step, Network.onCaller, hc, Caller.readHead, hstage, hread,
              Option.map_none]
          · exact Option.map_eq_none_iff.mp hstuck

/-- A thread that is stuck at its read of the body leaves nothing to do for its own call. -/
theorem readBody_stuck (h : Rests ownShared (fittingSharedSystem b) s) (hI : SharedInv s)
    {r : Request} {k : Nat} (hi : s.threads[i]? = some (.readBody r k))
    {a : EasyRpcRemoteCall.Act ep World} (hmover : mover a = some k)
    (hown : ownNet s.net a = true) : s.net.step b a = none := by
  obtain ⟨⟨c, hc, -, -, -, hstage⟩, -⟩ := hI.stands i _ hi _ _ _ rfl
  cases a with
  | connect | accept | headRead | bodyRead | runHandler | respond | server => cases hmover
  | write j remains ec =>
      cases hmover
      simp only [Network.step, Network.onCaller, hc, Caller.write, hstage, Option.map_none]
  | readHead j ec =>
      cases hmover
      simp only [Network.step, Network.onCaller, hc, Caller.readHead, hstage, Option.map_none]
  | readBody j ec =>
      cases hmover
      cases ec with
      | some what =>
          have hfails := fails_at_rest h hi what (Bool.or_eq_true_iff.mpr (Or.inr hown))
          exact Option.map_eq_none_iff.mp hfails
      | none =>
          have hstuck := move_at_rest h hi
          simp only [SharedClient.move, SharedClient.readBody,
            socket_of_reading h hI hi (Or.inr rfl), hc] at hstuck
          split at hstuck
          · rename_i hread
            simp only [Network.step, Network.onCaller, hc, Caller.readBody, hstage, hread,
              Option.map_none]
          · cases hstuck

/-- A thread at rest has no call, or waits for the mutex or the response. -/
theorem place_at_rest (h : Rests ownShared (fittingSharedSystem b) s) (hI : SharedInv s)
    (hi : s.threads[i]? = some p) : p = .idle ∨ (∃ r, p = .lock r)
      ∨ (∃ r k, p = .readHead r k) ∨ ∃ r k, p = .readBody r k := by
  have hstuck := move_at_rest h hi
  cases p with
  | idle => exact Or.inl rfl
  | lock r => exact Or.inr (Or.inl ⟨r, rfl⟩)
  | readHead r k => exact Or.inr (Or.inr (Or.inl ⟨r, k, rfl⟩))
  | readBody r k => exact Or.inr (Or.inr (Or.inr ⟨r, k, rfl⟩))
  | write r k => exact absurd hi (not_writing h hI)
  | connect | checkHead | copyBody | disconnect | unlock => cases hstuck

/-- **A REST OF THE THREADS IS ONE OF THE NETWORK**: the calls they have in hand are stuck there,
    the others are nobody's. -/
theorem net_at_rest (h : Rests ownShared (fittingSharedSystem b) s) (hI : SharedInv s) :
    Rests ownNet (fittingSystem b) s.net := by
  intro a ha
  show (if fitting a then s.net.step b a else none) = none
  split
  · rename_i hfit
    by_cases hhand : ∃ k, mover a = some k ∧ s.inHand k = true
    · obtain ⟨k, hmover, hhand⟩ := hhand
      obtain ⟨p, hmem, hcall⟩ := List.any_eq_true.mp hhand
      obtain ⟨i, hi⟩ := List.mem_iff_getElem?.mp hmem
      rw [beq_iff_eq] at hcall
      rcases place_at_rest h hI hi with rfl | ⟨r, rfl⟩ | ⟨r, k', rfl⟩ | ⟨r, k', rfl⟩
      · cases hcall
      · cases hcall
      · cases hcall
        exact readHead_stuck h hI hi hmover ha
      · cases hcall
        exact readBody_stuck h hI hi hmover ha
    · have hfree : (mover a).any s.inHand = false := by
        rw [← Bool.not_eq_true, Option.any_eq_true]
        exact hhand
      have hstep := step_of_shared_rests h (a := .net a) ha hfit
      simp only [SharedClient.step, hfree, Bool.false_eq_true, if_false,
        Option.map_eq_none_iff] at hstep
      exact hstep
  · rfl

/-- **AT REST NO THREAD IS IN A CALL**. -/
theorem idle_at_rest [Nonempty World] (h : Rests ownShared (fittingSharedSystem b) s)
    (hS : SharedGoing b s) (hworkers : s.net.server.pool.workers ≠ [])
    (hproducers : 0 < s.net.server.pool.producers.length)
    (hstd : ∀ run ∈ s.net.runs, run.outcome ≠ .error .other) (hi : s.threads[i]? = some p) :
    p = .idle := by
  have hrests := net_at_rest h hS.inv
  obtain ⟨hinv, hserver, htended, hlively⟩ := hS.going
  have hfinished := pool_at_rest hrests hinv hserver hlively hworkers hstd
  have hended : ∀ r k stage, IsAt s.net r k stage → stage.status ≠ .waiting := by
    rintro r k stage ⟨c, hc, -, -, -, rfl⟩
    exact Still.ended ⟨hrests, hinv, htended, hlively, hfinished⟩ hproducers hc
      (hS.sound.intact k c hc)
  have hreading : ∀ (j : Nat) x, s.threads[j]? = some x → x = .idle ∨ ∃ r, x = .lock r := by
    intro j x hj
    rcases place_at_rest h hS.inv hj with hx | hx | ⟨r, k, rfl⟩ | ⟨r, k, rfl⟩
    · exact Or.inl hx
    · exact Or.inr hx
    · exact absurd rfl (hended _ _ _ (hS.inv.stands j _ hj _ _ _ rfl).1)
    · exact absurd rfl (hended _ _ _ (hS.inv.stands j _ hj _ _ _ rfl).1)
  rcases hreading i p hi with hp | ⟨r, rfl⟩
  · exact hp
  · -- nobody has the mutex
    have hstuck := move_at_rest h hi
    cases hmutex : s.client.mutex with
    | none =>
        simp only [SharedClient.move, hmutex] at hstuck
        cases hstuck
    | some j =>
        obtain ⟨x, hj, hin⟩ := (hS.inv.guarded j).mp hmutex
        rcases hreading j x hj with rfl | ⟨r', rfl⟩ <;> cases hin

end Rest

/-! ## Runs -/

/-- A client that `t` threads share, and a server with `n` workers and `m` I/O threads. -/
def SharedClient.initial (n m t : Nat) (head : CharArray responseHeaderLen)
    (resHead : ResponseHeader) : SharedClient ep World :=
  ⟨⟨⟨.initial n m, [], []⟩, [], [], []⟩, ⟨none, none, head, resHead, []⟩,
    List.replicate t .idle, []⟩

/-- The calls that an action makes. -/
def made : EasyRpcSharedClient.Act ep World → Nat
  | .call _ _ => 1
  | _ => 0

/-- A thread is inside of a call. -/
def isBusy : Place → Bool
  | .idle => false
  | _ => true

/-- The calls that are in the hands of their threads, and those that have ended. -/
def callsOf (s : SharedClient ep World) : Nat := s.threads.countP isBusy + s.finished.length

section Runs

variable {b : Bindings ep World} {s s' : SharedClient ep World} {n m t : Nat}
  {head : CharArray responseHeaderLen} {resHead : ResponseHeader}

theorem sharedGoing_initial :
    SharedGoing b (SharedClient.initial n m t head resHead : SharedClient ep World) := by
  have hidle : ∀ (i : Nat) p, (List.replicate t Place.idle)[i]? = some p → p = .idle :=
    fun i p hi => List.eq_of_mem_replicate (List.mem_of_getElem? hi)
  have hstart : (sharedSystem b).start (SharedClient.initial n m t head resHead) :=
    ⟨⟨_, ⟨n, m, rfl⟩, rfl⟩, rfl, rfl, fun p hp => List.eq_of_mem_replicate hp⟩
  refine ⟨sharedInv_of_reachable (Reachable.start hstart), going_initial n m, ?_, ?_⟩
  · exact sound_of_reachable (Reachable.start ⟨_, ⟨n, m, rfl⟩, rfl⟩)
  · intro i p r hi hasks
    cases hidle i p hi
    cases hasks

/-- Among the fitting calls every step is paid for as well. -/
theorem fittingShared_pays (b : Bindings ep World) :
    Pays (fittingSharedSystem b) sharedPotential sharedBrings :=
  fun s a s' hs => shared_pays b s a s' (Option.ite_none_right_eq_some.mp hs).2

/-- A run of the shared client is a run of its network. -/
theorem net_of_shared_leads (hS : SharedGoing b s) (h : Leads (fittingSharedSystem b) s s') :
    Leads (remoteSystem b) s.net s'.net :=
  h.simulation_of (J := SharedGoing b) SharedClient.net (fun _ _ _ hS hs => hS.step hs)
    (fun _ _ _ hS hs =>
      hS.inv.net_step (shared_cases (Option.ite_none_right_eq_some.mp hs).2)) hS

/-- A call that was made is in the hands of its thread or has ended. -/
theorem calls_counted {a : EasyRpcSharedClient.Act ep World}
    (hs : (fittingSharedSystem b).step s a = some s') : callsOf s' = callsOf s + made a := by
  cases shared_cases (Option.ite_none_right_eq_some.mp hs).2 with
  | @calls i r hi =>
      have hcount := countP_move isBusy hi (.lock r)
      simp only [isBusy, Bool.false_eq_true, if_false, if_true] at hcount
      simp only [callsOf, made]
      omega
  | @moves i remains ec p q net' client' hi hmove =>
      have hcount := countP_move isBusy hi q
      have hends : (if isBusy p then 1 else 0) = (if isBusy q then 1 else 0) + p.ends.length := by
        cases hmove <;> rfl
      simp only [callsOf, made, List.length_append]
      omega
  | expires => rfl
  | network => rfl

theorem own_makes_none {a : EasyRpcSharedClient.Act ep World}
    (hs : (only ownShared (fittingSharedSystem b)).step s a = some s') :
    callsOf s' = callsOf s + 0 := by
  obtain ⟨ha, hs⟩ := step_only.mp hs
  cases a with
  | call | timer => cases ha
  | thread | net => exact calls_counted hs

theorem sharedPotential_initial :
    sharedPotential (SharedClient.initial n m t head resHead : SharedClient ep World)
      = 4 * n + 5 := by
  have hnet : networkPotential (⟨⟨.initial n m, [], []⟩, [], [], []⟩ : Network ep World) = _ :=
    networkPotential_initial n m
  simp only [sharedPotential, SharedClient.initial, List.map_replicate, List.sum_replicate_nat,
    placePotential, Nat.mul_zero, Nat.zero_add, hnet]

theorem callsOf_initial :
    callsOf (SharedClient.initial n m t head resHead : SharedClient ep World) = 0 := by
  simp only [callsOf, SharedClient.initial, List.countP_replicate, isBusy, Bool.false_eq_true,
    if_false, List.length_nil]

/-- **CALLS THROUGH A SHARED CLIENT END**: any number of threads on one client, whose requests fit
    their headers and whose headers last, left to themselves and the network without errors and
    expiries from outside, take a bounded number of further steps, in whatever order; they can stop
    nowhere but with the mutex free and every call they made ended, as long as no handler has
    thrown what is no `std::exception`; and they can get there. -/
theorem shared_calls_end [Nonempty World] (hn : 0 < n) (hm : 0 < m)
    {as : List (EasyRpcSharedClient.Act ep World)}
    (hexec : exec (fittingSharedSystem b) (SharedClient.initial n m t head resHead) as = some s) :
    (∀ bs s', exec (only ownShared (fittingSharedSystem b)) s bs = some s' →
      as.length + bs.length ≤ 4 * n + 5 + (as.map sharedBrings).sum
      ∧ (Rests ownShared (fittingSharedSystem b) s' →
          (∀ run ∈ s'.net.runs, run.outcome ≠ .error .other) →
          s'.client.mutex = none ∧ (∀ p ∈ s'.threads, p = .idle)
          ∧ s'.finished.length = (as.map made).sum))
    ∧ ∃ bs s', exec (only ownShared (fittingSharedSystem b)) s bs = some s'
        ∧ Rests ownShared (fittingSharedSystem b) s' := by
  have hown : ∀ (s : SharedClient ep World) a, ownShared s a = true → sharedBrings a = 0 :=
    fun _ _ => ownShared_brings
  refine ⟨fun bs s' hbs => ⟨?_, fun hrests hstd => ?_⟩,
    (fittingShared_pays b).comes_to_rest hown s⟩
  · have hbefore := (fittingShared_pays b).length_le hexec
    have hafter := (fittingShared_pays b).length_le_of_own hown hbs
    rw [sharedPotential_initial] at hbefore
    omega
  · have hall := exec_append hexec (exec_only hbs)
    have hS : SharedGoing b s' :=
      Leads.invariant (fun _ _ _ hS hs => hS.step hs) ⟨_, hall⟩ sharedGoing_initial
    have hnet := net_of_shared_leads sharedGoing_initial ⟨_, hall⟩
    obtain ⟨hworkers, hproducers⟩ := lengths_of_leads hnet
    replace hworkers : s'.net.server.pool.workers.length = n :=
      hworkers.trans List.length_replicate
    replace hproducers : s'.net.server.pool.producers.length = m :=
      hproducers.trans List.length_replicate
    have hsome : s'.net.server.pool.workers ≠ [] := List.ne_nil_of_length_pos (hworkers ▸ hn)
    have hidle : ∀ (i : Nat) p, s'.threads[i]? = some p → p = .idle :=
      fun i p hi => idle_at_rest hrests hS hsome (hproducers ▸ hm) hstd hi
    refine ⟨?_, ?_, ?_⟩
    · cases hmutex : s'.client.mutex with
      | none => rfl
      | some i =>
          obtain ⟨p, hi, hin⟩ := (hS.inv.guarded i).mp hmutex
          cases hidle i p hi
          cases hin
    · intro p hmem
      obtain ⟨i, hi⟩ := List.mem_iff_getElem?.mp hmem
      exact hidle i p hi
    · have hbefore := exec_sum (fun _ _ _ => calls_counted) hexec
      have hafter : callsOf s' = callsOf s + (bs.map fun _ => 0).sum :=
        exec_sum (fun _ _ _ => own_makes_none) hbs
      have hnone : s'.threads.countP isBusy = 0 := by
        refine List.countP_eq_zero.mpr fun p hmem => ?_
        obtain ⟨i, hi⟩ := List.mem_iff_getElem?.mp hmem
        cases hidle i p hi
        exact Bool.false_ne_true
      rw [List.map_const', List.sum_replicate_nat, callsOf, hnone] at hafter
      rw [callsOf_initial] at hbefore
      omega

end Runs

/-- Two calls that have begun end within 63 more steps. -/
theorem shared_calls_end_echo : ∃ (s s' : SharedClient bytePack Unit)
    (bs : List (EasyRpcSharedClient.Act bytePack Unit)),
    s.threads = [.lock ⟨[101], .nonRaw, [7]⟩, .lock ⟨[101], .nonRaw, [9]⟩]
    ∧ exec (only ownShared (fittingSharedSystem echoBindings)) s bs = some s' ∧ bs.length ≤ 63
    ∧ s'.client.mutex = none ∧ s'.finished.length = 2 := by
  have hexec : exec (fittingSharedSystem echoBindings)
      (SharedClient.initial 1 1 2 (.zero 4) ⟨0⟩) (twoCalls.take 2) = some _ := rfl
  obtain ⟨hevery, bs, s', hbs, hrests⟩ := shared_calls_end Nat.one_pos Nat.one_pos hexec
  obtain ⟨hlen, hdone⟩ := hevery bs s' hbs
  have hS : SharedGoing echoBindings s' :=
    Leads.invariant (fun _ _ _ hS hs => hS.step hs) ⟨_, exec_append hexec (exec_only hbs)⟩
      sharedGoing_initial
  obtain ⟨hfree, -, hcount⟩ := hdone hrests (std_of_bindings hS.sound echoBindings_std)
  exact ⟨_, s', bs, rfl, hbs, Nat.le_of_add_le_add_left hlen, hfree, hcount⟩

end EasyRpcSharedProgress
