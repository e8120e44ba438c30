import EasyRpc.RemoteProgressProofs
import Mathlib.Data.Int.CardIntervalMod

/-! # The accept loop — connections dealt to the I/O threads in turn

    `server::accept` makes the next connection on the io_service whose turn it is, waits for a
    client to connect to it, and comes round again, whether the accept failed or not.  The
    acceptor itself has had the first turn.

    So once the server listens one accept is outstanding, at any time; no I/O thread serves more
    connections than another, but for one and for the accepts that failed; and what the server
    does with its connections is a run of the network, where they may be accepted on any I/O
    thread (`dealt_round_robin`). -/

/-! ## Turns

    Turns go round `n` places, from place `first % n` on.  However many there have been, two
    places differ by one turn at most (`turns_balanced`). -/

namespace RoundRobin

/-- The turns that place `i` has had in the first `k`. -/
def turns (n first i k : Nat) : Nat := Nat.count (fun t => (first + t) % n = i) k

theorem turns_succ (n first i k : Nat) :
    turns n first i (k + 1) = turns n first i k + if (first + k) % n = i then 1 else 0 :=
  Nat.count_succ _ k

/-- The turns of a place are those of one residue class. -/
theorem turn_iff {n i : Nat} (first : Nat) (hi : i < n) (t : Nat) :
    (first + t) % n = i ↔ t ≡ i + (n - first % n) [MOD n] := by
  have hround : first + (n - first % n) = n * (first / n + 1) := by
    have hdiv := Nat.div_add_mod first n
    have hlt := Nat.mod_lt first (Nat.zero_lt_of_lt hi)
    rw [Nat.mul_add, Nat.mul_one]
    omega
  have hback : first + (i + (n - first % n)) ≡ i [MOD n] := by
    rw [Nat.add_left_comm, hround]
    exact Nat.add_mul_mod_self_left i n _
  have hclass : (first + t) % n = i ↔ first + t ≡ i [MOD n] := by
    rw [Nat.ModEq, Nat.mod_eq_of_lt hi]
  rw [hclass]
  constructor
  · intro h
    exact Nat.ModEq.add_left_cancel' first (h.trans hback.symm)
  · intro h
    exact (h.add_left first).trans hback

/-- How often each has had its turn: the quotient, and one more for the first of the remainder. -/
theorem turns_eq {n first i : Nat} (hi : i < n) (k : Nat) :
    turns n first i k
      = k / n + if (i + (n - first % n)) % n < k % n then 1 else 0 := by
  rw [← Nat.count_modEq_card k (Nat.zero_lt_of_lt hi), turns]
  congr 1
  funext t
  exact propext (turn_iff first hi t)

/-- **BALANCE**. -/
theorem turns_balanced {n first i j : Nat} (hi : i < n) (hj : j < n) (k : Nat) :
    turns n first i k ≤ turns n first j k + 1 := by
  rw [turns_eq hi, turns_eq hj]
  split <;> split <;> omega

end RoundRobin

/-! ## The server that listens -/

namespace EasyRpcAcceptLoop

open Transition ThreadTable RoundRobin EasyRpcConnection EasyRpcDispatch EasyRpcThreadPool
open EasyRpcRoundTrip EasyRpcServer EasyRpcServerProgress EasyRpcRemoteCall EasyRpcRemoteProgress

variable {ep : Easypack} {World : Type}

/-- `io_service_pool`: how many there are, and whose turn it is. -/
structure IoServicePool where
  size : Nat
  nextIoService : Nat
  inside : nextIoService < size

namespace IoServicePool

/-- `io_service_pool::io_service_pool`, which refuses an empty pool. -/
def create (poolSize : Nat) : Except String IoServicePool :=
  if h : poolSize = 0 then .error "io server pool size is 0"
  else .ok ⟨poolSize, 0, Nat.pos_of_ne_zero h⟩

/-- `get_io_service`. -/
def getIoService (pool : IoServicePool) : Nat × IoServicePool :=
  (pool.nextIoService,
    if h : pool.nextIoService + 1 = pool.size then
      ⟨pool.size, 0, h ▸ Nat.succ_pos _⟩
    else
      ⟨pool.size, pool.nextIoService + 1, Nat.lt_of_le_of_ne pool.inside h⟩)

@[simp] theorem getIoService_size (pool : IoServicePool) :
    pool.getIoService.2.size = pool.size := by
  rw [getIoService]
  split <;> rfl

/-- The turn goes round. -/
theorem getIoService_next (pool : IoServicePool) :
    pool.getIoService.2.nextIoService = (pool.nextIoService + 1) % pool.size := by
  rw [getIoService]
  split
  · rename_i h
    rw [h, Nat.mod_self]
  · rename_i h
    exact (Nat.mod_eq_of_lt (Nat.lt_of_le_of_ne pool.inside h)).symm

end IoServicePool

/-- The acceptor, which a `listen` that throws may leave opened. -/
inductive Acceptor where
  | closed
  -- opened by a `listen` that threw later on
  | opened
  | listening
  deriving DecidableEq

/-- How `server::listen()` ends: with no error, or where it throws. -/
inductive Listening where
  | ok
  | notOpened
  | notBound

/-- A connection that waits in `async_accept`. -/
structure Pending where
  io : Nat
  timeoutMilli : Nat

/-- `server`, with the network its connections belong to. -/
structure Listener (ep : Easypack) (World : Type) where
  net : Network ep World
  iosPool : IoServicePool
  acceptor : Acceptor
  timeoutMilli : Nat
  accepting : List Pending
  -- the accepts that completed with an error
  failed : Nat

/-- What happens to a listening server: its timeout, `run`, and the completion of its accepts. -/
inductive Act (ep : Easypack) (World : Type) where
  | timeout (timeoutMilli : Nat)
  | run (outcome : Listening)
  -- the `i`-th outstanding accept completes: with an error, or with the connection of call `k`
  | accepted (i k : Nat) (ec : Bool)
  | net (a : EasyRpcRemoteCall.Act ep World)

/-- An accept of the network, which only the acceptor makes here. -/
def isAccept : EasyRpcRemoteCall.Act ep World → Bool
  | .accept _ _ _ => true
  | _ => false

namespace Listener

/-- `server()` on a machine with `concurrency` hardware threads, and `workers` in its pool. -/
def create (workers concurrency : Nat) : Except String (Listener ep World) :=
  match IoServicePool.create concurrency with
  | .error what => .error what
  | .ok iosPool =>
      .ok ⟨⟨⟨.initial workers concurrency, [], []⟩, [], [], []⟩, iosPool.getIoService.2, .closed, 0,
        [], 0⟩

variable (b : Bindings ep World) (s : Listener ep World)

/-- `server::accept`: the next io_service in turn, and one more accept outstanding. -/
def accept : Listener ep World :=
  { s with
    iosPool := s.iosPool.getIoService.2
    accepting := s.accepting ++ [⟨s.iosPool.getIoService.1, s.timeoutMilli⟩] }

/-- `listen(); accept();` in `run`; an acceptor that is open already cannot be opened. -/
def run (outcome : Listening) : Listener ep World :=
  match s.acceptor, outcome with
  | .closed, .ok => { s with acceptor := .listening }.accept
  | .closed, .notBound => { s with acceptor := .opened }
  | _, _ => s

/-- The handler of `async_accept`, on the I/O thread of the acceptor. -/
def accepted (i k : Nat) (ec : Bool) : Option (Listener ep World) :=
  if s.net.server.ioFree 0 then
    match s.accepting[i]? with
    | none => none
    | some p =>
        let s' := { s with accepting := s.accepting.eraseIdx i }
        if ec then some { s' with failed := s.failed + 1 }.accept
        else (s.net.step b (.accept k p.io p.timeoutMilli)).map fun net =>
          { s' with net := net }.accept
  else none

/-- One step of the listening server. -/
def step : Act ep World → Option (Listener ep World)
  | .timeout timeoutMilli => some { s with timeoutMilli := timeoutMilli }
  | .run outcome => some (s.run outcome)
  | .accepted i k ec => s.accepted b i k ec
  | .net a =>
      if isAccept a then none else (s.net.step b a).map fun net => { s with net := net }

/-- The connections that I/O thread `i` serves. -/
def load (i : Nat) : Nat := (s.net.server.conns.map Accepted.io).count i

/-- The accepts that have completed. -/
def completed : Nat := s.net.server.conns.length + s.failed

end Listener

/-- A server that listens, from its construction on. -/
def listeningSystem (b : Bindings ep World) : System (Listener ep World) (Act ep World) where
  start s := ∃ workers concurrency, Listener.create workers concurrency = .ok s
  step s := s.step b

/-! ## Connections keep their I/O threads -/

section Threads

variable {b : Bindings ep World}

theorem setConn_ios {s : Server ep World} {n : Nat} {a : Accepted} (ha : s.conns[n]? = some a)
    (c : Connection) :
    (s.setConn n a c).conns.map Accepted.io = s.conns.map Accepted.io := by
  obtain ⟨hlt, hget⟩ := List.getElem?_eq_some_iff.mp ha
  show (s.conns.set n ⟨c, a.io⟩).map Accepted.io = _
  rw [List.map_set]
  refine List.ext_getElem (List.length_set ..) fun m h₁ h₂ => ?_
  rw [List.getElem_set]
  split
  · rename_i heq
    subst heq
    rw [List.getElem_map, hget]
  · rfl

/-- Only an accept brings a connection. -/
theorem ios_of_effect {s s' : Server ep World} {a : EasyRpcServer.Act ep World}
    (hs : Effect b s a s') :
    s'.conns.map Accepted.io = s.conns.map Accepted.io ∨ ∃ io t, a = .accept io t
      ∧ s'.conns.map Accepted.io = s.conns.map Accepted.io ++ [io] := by
  cases hs with
  | @accepts io timeoutMilli hio => exact Or.inr ⟨io, timeoutMilli, rfl, List.map_append⟩
  | pool | runs => exact Or.inl rfl
  | headReads ha | headFails ha | headAccepted ha | headRefused ha | bodyReads ha | bodyFails ha
  | bodyRefused ha | returns ha | expires ha | handles ha | destructs ha =>
      exact Or.inl (setConn_ios ha _)
  | routes ha => exact Or.inl (setConn_ios ha _)
  | ends _ _ _ ha => exact Or.inl (setConn_ios ha _)

theorem ios_of_step {net net' : Network ep World} {a : EasyRpcRemoteCall.Act ep World}
    (hs : net.step b a = some net') (ha : isAccept a = false) :
    net'.server.conns.map Accepted.io = net.server.conns.map Accepted.io := by
  cases step_cases hs with
  | connects | writes | readsHead | readsBody | runs => rfl
  | accepts => cases ha
  | headReads _ _ ha' => exact setConn_ios ha' _
  | bodyReads _ _ ha' => exact setConn_ios ha' _
  | responds _ _ _ ha' => exact setConn_ios ha' _
  | server hint heffect =>
      rcases ios_of_effect heffect with hsame | ⟨io, t, rfl, -⟩
      · exact hsame
      · cases hint

theorem ios_of_accept {net net' : Network ep World} {k io t : Nat}
    (hs : net.step b (.accept k io t) = some net') :
    net'.server.conns.map Accepted.io = net.server.conns.map Accepted.io ++ [io] := by
  cases step_cases hs with
  | accepts => exact List.map_append

theorem producers_of_step {net net' : Network ep World} {a : EasyRpcRemoteCall.Act ep World}
    (hs : net.step b a = some net') :
    net'.server.pool.producers.length = net.server.pool.producers.length := by
  rcases effect_of_net (step_cases hs) with heq | ⟨act, hact⟩
  · rw [heq]
  · exact (lengths_of_effect hact).2

end Threads

/-! ## The invariant -/

/-- The turns that have been had: the acceptor's, those of the accepts that have completed, and
    those of the outstanding ones. -/
structure Dealt (s : Listener ep World) : Prop where
  threads : s.net.server.pool.producers.length = s.iosPool.size
  next : s.iosPool.nextIoService = (1 + s.completed + s.accepting.length) % s.iosPool.size
  loads : ∀ i, s.load i ≤ turns s.iosPool.size 1 i s.completed
    ∧ turns s.iosPool.size 1 i s.completed ≤ s.load i + s.failed

/-- Once the server listens one accept is outstanding, on the I/O thread whose turn it was. -/
def Waiting (s : Listener ep World) : Prop :=
  s.accepting.map Pending.io
    = if s.acceptor = .listening then [(1 + s.completed) % s.iosPool.size] else []

section Steps

variable {b : Bindings ep World} {s s' : Listener ep World}

/-- Starting an accept keeps the deal: the turn passes on. -/
theorem Dealt.accept (h : Dealt s) (hnone : s.accepting = [])
    (hlistening : s.acceptor = .listening) : Dealt s.accept ∧ Waiting s.accept := by
  have hnext := h.next
  rw [hnone, List.length_nil, Nat.add_zero] at hnext
  refine ⟨⟨?_, ?_, ?_⟩, ?_⟩
  · show s.net.server.pool.producers.length = s.iosPool.getIoService.2.size
    rw [IoServicePool.getIoService_size]
    exact h.threads
  · show s.iosPool.getIoService.2.nextIoService = (1 + s.completed
      + (s.accepting ++ [(⟨s.iosPool.nextIoService, s.timeoutMilli⟩ : Pending)]).length)
        % s.iosPool.getIoService.2.size
    rw [hnone, IoServicePool.getIoService_next, IoServicePool.getIoService_size, hnext,
      Nat.mod_add_mod]
    rfl
  · intro i
    show s.load i ≤ turns s.iosPool.getIoService.2.size 1 i s.completed
      ∧ turns s.iosPool.getIoService.2.size 1 i s.completed ≤ s.load i + s.failed
    rw [IoServicePool.getIoService_size]
    exact h.loads i
  · show (s.accepting ++ [(⟨s.iosPool.nextIoService, s.timeoutMilli⟩ : Pending)]).map Pending.io
      = if s.acceptor = .listening then
          [(1 + s.completed) % s.iosPool.getIoService.2.size] else []
    rw [if_pos hlistening, hnone, IoServicePool.getIoService_size, hnext]
    rfl

/-- What is outstanding is one accept, on the I/O thread whose turn it was. -/
theorem Waiting.only (h : Waiting s) {i : Nat} {p : Pending} (hi : s.accepting[i]? = some p) :
    s.acceptor = .listening ∧ s.accepting.eraseIdx i = []
    ∧ s.accepting.length = 1 ∧ p.io = (1 + s.completed) % s.iosPool.size := by
  have hmem : p.io ∈ s.accepting.map Pending.io := List.mem_map_of_mem (List.mem_of_getElem? hi)
  rw [Waiting] at h
  split at h
  · rename_i hlistening
    have hlen := congrArg List.length h
    rw [List.length_map, List.length_singleton] at hlen
    obtain ⟨q, hq⟩ := List.length_eq_one_iff.mp hlen
    rw [h, List.mem_singleton] at hmem
    refine ⟨hlistening, ?_, hlen, hmem⟩
    obtain ⟨hlt, -⟩ := List.getElem?_eq_some_iff.mp hi
    rw [hlen, Nat.lt_one_iff] at hlt
    rw [hq, hlt]
    rfl
  · rw [h] at hmem
    cases hmem

/-- The accept that completes leaves its turn behind, with a connection or without. -/
theorem Dealt.completes (h : Dealt s) (hw : Waiting s) {i : Nat} {p : Pending}
    (hi : s.accepting[i]? = some p) {net' : Network ep World} {failed : Nat}
    (hproducers : net'.server.pool.producers.length = s.net.server.pool.producers.length)
    (hios : net'.server.conns.map Accepted.io = s.net.server.conns.map Accepted.io ++ [p.io]
        ∧ failed = s.failed
      ∨ net' = s.net ∧ failed = s.failed + 1) :
    Dealt { s with net := net', accepting := s.accepting.eraseIdx i, failed := failed } := by
  obtain ⟨-, hnil, hone, hio⟩ := hw.only hi
  have hcompleted : net'.server.conns.length + failed = s.completed + 1 := by
    rcases hios with ⟨hios, rfl⟩ | ⟨rfl, rfl⟩
    · have hlen := congrArg List.length hios
      rw [List.length_map, List.length_append, List.length_map, List.length_singleton] at hlen
      rw [hlen, Listener.completed, Nat.add_right_comm]
    · rfl
  refine ⟨hproducers.trans h.threads, ?_, ?_⟩
  · show s.iosPool.nextIoService = (1 + (net'.server.conns.length + failed)
      + (s.accepting.eraseIdx i).length) % s.iosPool.size
    rw [h.next, hcompleted, hnil, hone]
    rfl
  · intro j
    obtain ⟨hle, hge⟩ := h.loads j
    show (net'.server.conns.map Accepted.io).count j
        ≤ turns s.iosPool.size 1 j (net'.server.conns.length + failed)
      ∧ turns s.iosPool.size 1 j (net'.server.conns.length + failed)
        ≤ (net'.server.conns.map Accepted.io).count j + failed
    rw [hcompleted, turns_succ, ← hio]
    rcases hios with ⟨hios, rfl⟩ | ⟨rfl, rfl⟩
    · have hcount : (net'.server.conns.map Accepted.io).count j
          = s.load j + if p.io = j then 1 else 0 := by
        rw [hios, List.count_append, List.count_singleton]
        simp only [beq_iff_eq, Listener.load]
      rw [hcount]
      omega
    · replace hle : (s.net.server.conns.map Accepted.io).count j ≤ _ := hle
      replace hge : _ ≤ (s.net.server.conns.map Accepted.io).count j + s.failed := hge
      constructor <;> split <;> omega

/-- **STEP**. -/
theorem dealt_step (h : Dealt s) (hw : Waiting s) {a : Act ep World}
    (hs : s.step b a = some s') : Dealt s' ∧ Waiting s' := by
  cases a with
  | timeout timeoutMilli =>
      cases hs
      exact ⟨⟨h.threads, h.next, h.loads⟩, hw⟩
  | run outcome =>
      cases hs
      cases hacceptor : s.acceptor with
      | opened | listening =>
          simp only [Listener.run, hacceptor]
          exact ⟨h, hw⟩
      | closed =>
          have hnone : s.accepting = [] := by
            rw [Waiting, hacceptor, if_neg (by decide), List.map_eq_nil_iff] at hw
            exact hw
          cases outcome with
          | notOpened =>
              simp only [Listener.run, hacceptor]
              exact ⟨h, hw⟩
          | notBound =>
              simp only [Listener.run, hacceptor]
              refine ⟨⟨h.threads, h.next, h.loads⟩, ?_⟩
              show s.accepting.map Pending.io = []
              rw [hnone]
              rfl
          | ok =>
              simp only [Listener.run, hacceptor]
              exact Dealt.accept ⟨h.threads, h.next, h.loads⟩ hnone rfl
  | accepted i k ec =>
      replace hs : s.accepted b i k ec = some s' := hs
      unfold Listener.accepted at hs
      split at hs
      · split at hs
        · cases hs
        · rename_i p hi
          obtain ⟨hlistening, hnil, -, -⟩ := hw.only hi
          cases ec with
          | true =>
              cases hs
              exact (h.completes hw hi rfl (Or.inr ⟨rfl, rfl⟩)).accept hnil hlistening
          | false =>
              obtain ⟨net', hstep, rfl⟩ := Option.map_eq_some_iff.mp hs
              exact (h.completes hw hi (producers_of_step hstep)
                (Or.inl ⟨ios_of_accept hstep, rfl⟩)).accept hnil hlistening
      · cases hs
  | net a =>
      obtain ⟨haccept, hs⟩ := Option.ite_none_left_eq_some.mp hs
      obtain ⟨net', hstep, rfl⟩ := Option.map_eq_some_iff.mp hs
      have hios := ios_of_step hstep (Bool.eq_false_iff.mpr haccept)
      have hlen := congrArg List.length hios
      rw [List.length_map, List.length_map] at hlen
      refine ⟨⟨(producers_of_step hstep).trans h.threads, ?_, ?_⟩, ?_⟩
      · show s.iosPool.nextIoService = (1 + (net'.server.conns.length + s.failed)
          + s.accepting.length) % s.iosPool.size
        rw [hlen]
        exact h.next
      · intro i
        show (net'.server.conns.map Accepted.io).count i
            ≤ turns s.iosPool.size 1 i (net'.server.conns.length + s.failed)
          ∧ turns s.iosPool.size 1 i (net'.server.conns.length + s.failed)
            ≤ (net'.server.conns.map Accepted.io).count i + s.failed
        rw [hlen, hios]
        exact h.loads i
      · show s.accepting.map Pending.io = if s.acceptor = .listening then
          [(1 + (net'.server.conns.length + s.failed)) % s.iosPool.size] else []
        rw [hlen]
        exact hw

/-- The accept loop takes steps of the network, or none. -/
theorem net_of_step {a : Act ep World} (hs : s.step b a = some s') :
    s'.net = s.net ∨ ∃ act, s.net.step b act = some s'.net := by
  cases a with
  | timeout timeoutMilli =>
      cases hs
      exact Or.inl rfl
  | run outcome =>
      cases hs
      refine Or.inl ?_
      unfold Listener.run
      split <;> rfl
  | accepted i k ec =>
      replace hs : s.accepted b i k ec = some s' := hs
      unfold Listener.accepted at hs
      split at hs
      · split at hs
        · cases hs
        · cases ec with
          | true =>
              cases hs
              exact Or.inl rfl
          | false =>
              obtain ⟨net', hstep, rfl⟩ := Option.map_eq_some_iff.mp hs
              exact Or.inr ⟨_, hstep⟩
      · cases hs
  | net a =>
      obtain ⟨-, hs⟩ := Option.ite_none_left_eq_some.mp hs
      obtain ⟨net', hstep, rfl⟩ := Option.map_eq_some_iff.mp hs
      exact Or.inr ⟨a, hstep⟩

end Steps

/-! ## Runs -/

section Runs

variable {b : Bindings ep World} {s : Listener ep World}

theorem create_ok {workers concurrency : Nat}
    (h : Listener.create workers concurrency = .ok s) :
    ∃ iosPool : IoServicePool, iosPool.size = concurrency ∧ iosPool.nextIoService = 0
      ∧ s = ⟨⟨⟨.initial workers concurrency, [], []⟩, [], [], []⟩, iosPool.getIoService.2,
        .closed, 0, [], 0⟩ := by
  unfold Listener.create IoServicePool.create at h
  by_cases hzero : concurrency = 0
  · simp only [hzero, dif_pos] at h
    cases h
  · simp only [hzero, dif_neg, not_false_eq_true] at h
    cases h
    exact ⟨_, rfl, rfl, rfl⟩

/-- In every reachable state the connections have been dealt out in turn. -/
theorem dealt_of_reachable (h : Reachable (listeningSystem b) s) : Dealt s ∧ Waiting s := by
  refine h.invariant (I := fun s => Dealt s ∧ Waiting s) ?_ fun s a s' hI _ hs =>
    dealt_step hI.1 hI.2 hs
  rintro s ⟨workers, concurrency, hcreate⟩
  obtain ⟨iosPool, hsize, hnext, rfl⟩ := create_ok hcreate
  refine ⟨⟨?_, ?_, fun i => ⟨Nat.zero_le _, Nat.zero_le _⟩⟩, rfl⟩
  · rw [IoServicePool.getIoService_size, hsize]
    exact List.length_replicate
  · show iosPool.getIoService.2.nextIoService = 1 % iosPool.getIoService.2.size
    rw [IoServicePool.getIoService_next, IoServicePool.getIoService_size, hnext]

/-- **A LISTENING SERVER IS THE NETWORK'S SERVER**: its runs are runs of the network, so that
    everything shown of those holds here. -/
theorem net_of_listening (h : Reachable (listeningSystem b) s) :
    Reachable (remoteSystem b) s.net := by
  refine h.simulation (J := fun _ => True) Listener.net (fun _ _ => trivial) ?_ ?_
  · rintro s ⟨workers, concurrency, hcreate⟩
    obtain ⟨iosPool, -, -, rfl⟩ := create_ok hcreate
    exact ⟨_, ⟨workers, concurrency, rfl⟩, rfl⟩
  · exact fun s a s' _ _ hs => net_of_step hs

/-- **CONNECTIONS ARE DEALT IN TURN**: with the accept loop in charge of accepting, a run of the
    server is one of the network; once it listens one accept is outstanding at any time, on the
    I/O thread whose turn it is; and no I/O thread serves more connections than another, but for
    one and for as many as accepts have failed. -/
theorem dealt_round_robin (h : Reachable (listeningSystem b) s) :
    Reachable (remoteSystem b) s.net
    ∧ s.accepting.map Pending.io = (if s.acceptor = .listening then
        [(1 + s.completed) % s.iosPool.size] else [])
    ∧ (∀ p ∈ s.accepting, p.io < s.net.server.pool.producers.length)
    ∧ ∀ i j, i < s.iosPool.size → j < s.iosPool.size → s.load i ≤ s.load j + s.failed + 1 := by
  obtain ⟨hdealt, hwaiting⟩ := dealt_of_reachable h
  refine ⟨net_of_listening h, hwaiting, fun p hmem => ?_, fun i j hi hj => ?_⟩
  · obtain ⟨i, hi⟩ := List.mem_iff_getElem?.mp hmem
    rw [(hwaiting.only hi).2.2.2, hdealt.threads]
    exact Nat.mod_lt _ (Nat.zero_lt_of_lt s.iosPool.inside)
  · have hbalanced : turns s.iosPool.size 1 i s.completed
        ≤ turns s.iosPool.size 1 j s.completed + 1 := turns_balanced hi hj s.completed
    have hle := (hdealt.loads i).1
    have hge := (hdealt.loads j).2
    omega

end Runs

/-- Two I/O threads: the acceptor is on the first, and the first connection on the second. -/
theorem dealt_round_robin_two : ∃ s : Listener bytePack Unit,
    s.acceptor = .listening ∧ s.net.server.conns.map Accepted.io = [1] ∧ s.failed = 0
    ∧ s.accepting.map Pending.io = [0]
    ∧ s.load 1 ≤ s.load 0 + s.failed + 1 := by
  have hstart : (listeningSystem echoBindings).start
      ⟨⟨⟨.initial 1 2, [], []⟩, [], [], []⟩, ⟨2, 1, by decide⟩, .closed, 0, [], 0⟩ :=
    ⟨1, 2, rfl⟩
  have hexec : exec (listeningSystem echoBindings)
      ⟨⟨⟨.initial 1 2, [], []⟩, [], [], []⟩, ⟨2, 1, by decide⟩, .closed, 0, [], 0⟩
      [.run .ok, .net (.connect [101] .nonRaw [7]), .accepted 0 0 false] = some _ := rfl
  obtain ⟨-, haccepting, -, hloads⟩ := dealt_round_robin ((Reachable.start hstart).exec hexec)
  exact ⟨_, rfl, rfl, rfl, haccepting, hloads 1 0 (by decide) (by decide)⟩

end EasyRpcAcceptLoop
