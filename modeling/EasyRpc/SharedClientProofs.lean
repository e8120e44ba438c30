import EasyRpc.RemoteRefinementProofs

/-! # One client, many threads — what the mutex of a call guards

    `client::call` and `call_raw` hold the client's mutex from before the connect until after the
    disconnect.  Behind it lie one socket and the buffers `head_`, `res_head_` and `body_`; every
    call fills and reads them again, and none of them says whose they are.  The timer's callback
    takes no mutex and closes the socket at any moment.

    Any number of threads share a client, with the server and the calls of other clients around
    them.  A thread with the mutex is where its call is, and what it needs of the client's fields
    is its own (`Stands`).  So every thread is handed the answer of the request it made
    (`threads_get_their_own`). -/

namespace EasyRpcSharedClient

open Transition ThreadTable Throwing ByteStream EasyRpcWire EasyRpcDispatch EasyRpcRoundTrip
open EasyRpcServer EasyRpcRemoteCall

variable {ep : Easypack} {World : Type}

/-- The array that a read has filled. -/
def charArray {n : Nat} (bytes : { bytes : List UInt8 // bytes.length = n }) : CharArray n :=
  ⟨bytes.val, bytes.property⟩

/-- What the threads share. -/
structure Client where
  -- the thread that has `mutex_`
  mutex : Option Nat
  -- the call whose connection `socket_` has open
  socket : Option Nat
  head : CharArray responseHeaderLen
  resHead : ResponseHeader
  body : List UInt8

/-- `session_.disconnect()`. -/
def Client.disconnect (client : Client) : Client := { client with socket := none }

/-- How a call of a thread ended; `k` is its connection. -/
inductive Finished where
  | unconnected (r : Request) (what : String)
  | called (r : Request) (k : Nat) (outcome : Except String (List UInt8))

/-- Where a thread is in `client::call` or `call_raw`. -/
inductive Place where
  | idle
  | lock (r : Request)
  | connect (r : Request)
  | write (r : Request) (k : Nat)
  | readHead (r : Request) (k : Nat)
  | checkHead (r : Request) (k : Nat)
  | readBody (r : Request) (k : Nat)
  -- `return body_`
  | copyBody (r : Request) (k : Nat)
  -- leaving the call: first the guard that disconnects, then the mutex
  | disconnect (r : Request) (k : Nat) (outcome : Except String (List UInt8))
  | unlock (f : Finished)

/-- The call of the network that a finished call was, if it got its connection. -/
def Finished.call : Finished → Option Nat
  | .unconnected _ _ => none
  | .called _ k _ => some k

namespace Place

/-- The call that the thread has in hand. -/
def call : Place → Option Nat
  | .idle | .lock _ | .connect _ => none
  | .write _ k | .readHead _ k | .checkHead _ k | .readBody _ k | .copyBody _ k => some k
  | .disconnect _ k _ => some k
  | .unlock f => f.call

/-- Between taking the mutex and giving it back. -/
def inside : Place → Bool
  | .idle => false
  | .lock _ => false
  | _ => true

/-- What the thread leaves behind when it gives the mutex back. -/
def ends : Place → List Finished
  | .unlock f => [f]
  | _ => []

end Place

/-- The client, its threads, and the network around them. -/
structure SharedClient (ep : Easypack) (World : Type) where
  net : Network ep World
  client : Client
  threads : List Place
  finished : List Finished

/-- The call that moves in a step of the network. -/
def mover : EasyRpcRemoteCall.Act ep World → Option Nat
  | .write k _ _ => some k
  | .readHead k _ => some k
  | .readBody k _ => some k
  | _ => none

/-- What the threads do, with the timer that they share and the network. -/
inductive Act (ep : Easypack) (World : Type) where
  -- a thread calls `client::call` or `call_raw`
  | call (i : Nat) (r : Request)
  -- its next step; `remains` is what has become of the header of a request that is written, `ec`
  -- the outcome of an I/O operation, with the bytes sent all the same
  | thread (i : Nat) (remains : Remains requestHeaderLen) (ec : Option (String × Nat))
  -- the timer's callback
  | timer
  -- the server, and the calls of other clients
  | net (a : EasyRpcRemoteCall.Act ep World)

namespace SharedClient

variable (b : Bindings ep World) (s : SharedClient ep World)

/-- `rpc_session::write`, on the socket the session has. -/
def write (r : Request) (k : Nat) (remains : Remains requestHeaderLen)
    (ec : Option (String × Nat)) : Option (Network ep World × Client × Place) :=
  match RpcSession.write r.protocol r.mode r.body remains, ec, s.client.socket with
  | .error what, _, _ =>
      (s.net.step b (.write k remains none)).map fun net =>
        (net, s.client, .disconnect r k (.error what))
  | .ok _, none, none => none
  | .ok _, none, some k' =>
      (s.net.step b (.write k' remains none)).map fun net => (net, s.client, .readHead r k)
  | .ok _, some (what, _), none =>
      (s.net.step b (.write k remains (some (what, 0)))).map fun net =>
        (net, s.client, .disconnect r k (.error what))
  | .ok _, some (what, sent), some k' =>
      (s.net.step b (.write k' remains (some (what, sent)))).map fun net =>
        (net, s.client, .disconnect r k (.error what))

/-- `read_head`: into `head_`. -/
def readHead (r : Request) (k : Nat) (ec : Option (String × Nat)) :
    Option (Network ep World × Client × Place) :=
  match ec, s.client.socket with
  | some (what, _), _ =>
      (s.net.step b (.readHead k (some what))).map fun net =>
        (net, s.client, .disconnect r k (.error what))
  | none, none => none
  | none, some k' =>
      match s.net.callers[k']? with
      | none => none
      | some c =>
          match c.response.read responseHeaderLen with
          | none => none
          | some (head, _) =>
              (s.net.step b (.readHead k' none)).map fun net =>
                (net, { s.client with head := charArray head }, .checkHead r k)

/-- `check_head`: copies `head_` to `res_head_`, whose length it checks. -/
def checkHead (r : Request) (k : Nat) : Network ep World × Client × Place :=
  (s.net, { s.client with resHead := ResponseHeader.ofBytes s.client.head },
    match RpcSession.checkHead s.client.head with
    | .error what => .disconnect r k (.error what)
    | .ok _ => .readBody r k)

/-- `read_body` up to its return: as many bytes into `body_` as `res_head_` says.  What a read that
    fails leaves in `body_` is cleared before the next. -/
def readBody (r : Request) (k : Nat) (ec : Option (String × Nat)) :
    Option (Network ep World × Client × Place) :=
  match ec, s.client.socket with
  | some (what, _), _ =>
      (s.net.step b (.readBody k (some what))).map fun net =>
        (net, { s.client with body := List.replicate s.client.resHead.bodyLen.toNat 0 },
          .disconnect r k (.error what))
  | none, none => none
  | none, some k' =>
      match s.net.callers[k']? with
      | none => none
      | some c =>
          match c.response.read s.client.resHead.bodyLen.toNat with
          | none => none
          | some (body, response) =>
              let c := { c with response := response, stage := .returned body.val }
              some ({ s.net with callers := s.net.callers.set k' c },
                { s.client with body := body.val }, .copyBody r k)

/-- `session_.connect()`. -/
def connect (r : Request) (ec : Option (String × Nat)) :
    Option (Network ep World × Client × Place) :=
  match ec with
  | some (what, _) => some (s.net, s.client.disconnect, .unlock (.unconnected r what))
  | none =>
      (s.net.step b (.connect r.protocol r.mode r.body)).map fun net =>
        (net, { s.client with socket := some s.net.callers.length },
          .write r s.net.callers.length)

/-- The next step of thread `i`. -/
def move (i : Nat) (remains : Remains requestHeaderLen) (ec : Option (String × Nat)) :
    Place → Option (Network ep World × Client × Place)
  | .idle => none
  | .lock r =>
      match s.client.mutex with
      | some _ => none
      | none => some (s.net, { s.client with mutex := some i }, .connect r)
  | .connect r => s.connect b r ec
  | .write r k => s.write b r k remains ec
  | .readHead r k => s.readHead b r k ec
  | .checkHead r k => some (s.checkHead r k)
  | .readBody r k => s.readBody b r k ec
  | .copyBody r k => some (s.net, s.client, .disconnect r k (.ok s.client.body))
  | .disconnect r k outcome =>
      some (s.net, s.client.disconnect, .unlock (.called r k outcome))
  | .unlock _ => some (s.net, { s.client with mutex := none }, .idle)

/-- The calls that the threads have in hand are moved by nobody else. -/
def inHand (k : Nat) : Bool := s.threads.any fun p => p.call == some k

/-- One step of a client that is shared. -/
def step : Act ep World → Option (SharedClient ep World)
  | .call i r =>
      match s.threads[i]? with
      | some .idle => some { s with threads := s.threads.set i (.lock r) }
      | _ => none
  | .thread i remains ec =>
      match s.threads[i]? with
      | none => none
      | some p =>
          (s.move b i remains ec p).map fun (net, client, q) =>
            ⟨net, client, s.threads.set i q, s.finished ++ p.ends⟩
  | .timer => some { s with client := s.client.disconnect }
  | .net a =>
      if (mover a).any s.inHand then none
      else (s.net.step b a).map fun net => { s with net := net }

end SharedClient

/-- A client that no thread has used yet, whatever its buffers hold. -/
def sharedSystem (b : Bindings ep World) : System (SharedClient ep World) (Act ep World) where
  start s := (remoteSystem b).start s.net ∧ s.client.mutex = none ∧ s.finished = []
    ∧ ∀ p ∈ s.threads, p = .idle
  step s := s.step b

/-! ## The moves of a thread -/

/-- What a move finds and what it leaves. -/
inductive Move (b : Bindings ep World) (net : Network ep World) (client : Client) (i : Nat)
    (remains : Remains requestHeaderLen) :
    Place → Network ep World → Client → Place → Prop where
  | locks {r : Request} (hfree : client.mutex = none) :
      Move b net client i remains (.lock r) net { client with mutex := some i } (.connect r)
  | unconnected {r : Request} {what : String} :
      Move b net client i remains (.connect r) net client.disconnect (.unlock (.unconnected r what))
  | connects {r : Request} {net' : Network ep World}
      (hstep : net.step b (.connect r.protocol r.mode r.body) = some net') :
      Move b net client i remains (.connect r) net'
        { client with socket := some net.callers.length } (.write r net.callers.length)
  | tooBig {r : Request} {k : Nat} {what : String} {net' : Network ep World}
      (hwrite : RpcSession.write r.protocol r.mode r.body remains = .error what)
      (hstep : net.step b (.write k remains none) = some net') :
      Move b net client i remains (.write r k) net' client (.disconnect r k (.error what))
  | writes {r : Request} {k k' : Nat} {buffers : List (List UInt8)} {net' : Network ep World}
      (hwrite : RpcSession.write r.protocol r.mode r.body remains = .ok buffers)
      (hsocket : client.socket = some k')
      (hstep : net.step b (.write k' remains none) = some net') :
      Move b net client i remains (.write r k) net' client (.readHead r k)
  | writeFails {r : Request} {k k' sent : Nat} {what : String} {buffers : List (List UInt8)}
      {net' : Network ep World}
      (hwrite : RpcSession.write r.protocol r.mode r.body remains = .ok buffers)
      (hsocket : client.socket = some k' ∨ k' = k)
      (hstep : net.step b (.write k' remains (some (what, sent))) = some net') :
      Move b net client i remains (.write r k) net' client (.disconnect r k (.error what))
  | headFails {r : Request} {k : Nat} {what : String} {net' : Network ep World}
      (hstep : net.step b (.readHead k (some what)) = some net') :
      Move b net client i remains (.readHead r k) net' client (.disconnect r k (.error what))
  | headReads {r : Request} {k k' : Nat} {c : Caller}
      {head : { bytes : List UInt8 // bytes.length = responseHeaderLen }}
      {response : Stream UInt8} {net' : Network ep World} (hsocket : client.socket = some k')
      (hc : net.callers[k']? = some c)
      (hread : c.response.read responseHeaderLen = some (head, response))
      (hstep : net.step b (.readHead k' none) = some net') :
      Move b net client i remains (.readHead r k) net'
        { client with head := charArray head } (.checkHead r k)
  | headRefused {r : Request} {k : Nat} {what : String}
      (hcheck : RpcSession.checkHead client.head = .error what) :
      Move b net client i remains (.checkHead r k) net
        { client with resHead := ResponseHeader.ofBytes client.head }
        (.disconnect r k (.error what))
  | headAccepted {r : Request} {k : Nat} {resHead : ResponseHeader}
      (hcheck : RpcSession.checkHead client.head = .ok resHead) :
      Move b net client i remains (.checkHead r k) net
        { client with resHead := ResponseHeader.ofBytes client.head } (.readBody r k)
  | bodyFails {r : Request} {k : Nat} {what : String} {net' : Network ep World}
      (hstep : net.step b (.readBody k (some what)) = some net') :
      Move b net client i remains (.readBody r k) net'
        { client with body := List.replicate client.resHead.bodyLen.toNat 0 }
        (.disconnect r k (.error what))
  | bodyReads {r : Request} {k k' : Nat} {c : Caller}
      {body : { bytes : List UInt8 // bytes.length = client.resHead.bodyLen.toNat }}
      {response : Stream UInt8} (hsocket : client.socket = some k')
      (hc : net.callers[k']? = some c)
      (hread : c.response.read client.resHead.bodyLen.toNat = some (body, response)) :
      Move b net client i remains (.readBody r k)
        { net with
          callers := net.callers.set k'
            { c with response := response, stage := .returned body.val } }
        { client with body := body.val } (.copyBody r k)
  | copies {r : Request} {k : Nat} :
      Move b net client i remains (.copyBody r k) net client (.disconnect r k (.ok client.body))
  | disconnects {r : Request} {k : Nat} {outcome : Except String (List UInt8)} :
      Move b net client i remains (.disconnect r k outcome) net client.disconnect
        (.unlock (.called r k outcome))
  | unlocks {f : Finished} :
      Move b net client i remains (.unlock f) net { client with mutex := none } .idle

section Moves

variable {b : Bindings ep World} {s : SharedClient ep World} {net' : Network ep World}
  {client' : Client} {i : Nat} {remains : Remains requestHeaderLen}
  {ec : Option (String × Nat)} {p q : Place}

theorem write_moves {r : Request} {k : Nat}
    (hs : s.write b r k remains ec = some (net', client', q)) :
    Move b s.net s.client i remains (.write r k) net' client' q := by
  unfold SharedClient.write at hs
  split at hs
  · rename_i what hwrite
    obtain ⟨net, hstep, heq⟩ := Option.map_eq_some_iff.mp hs
    cases heq
    exact .tooBig hwrite hstep
  · cases hs
  · rename_i buffers k' hwrite hsocket
    obtain ⟨net, hstep, heq⟩ := Option.map_eq_some_iff.mp hs
    cases heq
    exact .writes hwrite hsocket hstep
  · rename_i buffers what sent hwrite hsocket
    obtain ⟨net, hstep, heq⟩ := Option.map_eq_some_iff.mp hs
    cases heq
    exact .writeFails hwrite (Or.inr rfl) hstep
  · rename_i buffers what sent k' hwrite hsocket
    obtain ⟨net, hstep, heq⟩ := Option.map_eq_some_iff.mp hs
    cases heq
    exact .writeFails hwrite (Or.inl hsocket) hstep

theorem readHead_moves {r : Request} {k : Nat}
    (hs : s.readHead b r k ec = some (net', client', q)) :
    Move b s.net s.client i remains (.readHead r k) net' client' q := by
  unfold SharedClient.readHead at hs
  split at hs
  · obtain ⟨net, hstep, heq⟩ := Option.map_eq_some_iff.mp hs
    cases heq
    exact .headFails hstep
  · cases hs
  · rename_i k' hsocket
    split at hs
    · cases hs
    · rename_i c hc
      split at hs
      · cases hs
      · rename_i head response hread
        obtain ⟨net, hstep, heq⟩ := Option.map_eq_some_iff.mp hs
        cases heq
        exact .headReads hsocket hc hread hstep

theorem checkHead_moves {r : Request} {k : Nat} (hs : s.checkHead r k = (net', client', q)) :
    Move b s.net s.client i remains (.checkHead r k) net' client' q := by
  cases hs
  cases hcheck : RpcSession.checkHead s.client.head with
  | error what => exact .headRefused hcheck
  | ok resHead => exact .headAccepted hcheck

theorem readBody_moves {r : Request} {k : Nat}
    (hs : s.readBody b r k ec = some (net', client', q)) :
    Move b s.net s.client i remains (.readBody r k) net' client' q := by
  unfold SharedClient.readBody at hs
  split at hs
  · obtain ⟨net, hstep, heq⟩ := Option.map_eq_some_iff.mp hs
    cases heq
    exact .bodyFails hstep
  · cases hs
  · rename_i k' hsocket
    split at hs
    · cases hs
    · rename_i c hc
      split at hs
      · cases hs
      · rename_i body response hread
        cases hs
        exact .bodyReads hsocket hc hread

/-- **MOVE INVERSION**. -/
theorem move_cases (hs : s.move b i remains ec p = some (net', client', q)) :
    Move b s.net s.client i remains p net' client' q := by
  cases p with
  | idle => cases hs
  | lock r =>
      simp only [SharedClient.move] at hs
      split at hs
      · cases hs
      · rename_i hfree
        cases hs
        exact .locks hfree
  | connect r =>
      simp only [SharedClient.move, SharedClient.connect] at hs
      split at hs
      · cases hs
        exact .unconnected
      · obtain ⟨net, hstep, heq⟩ := Option.map_eq_some_iff.mp hs
        cases heq
        exact .connects hstep
  | write r k => exact write_moves hs
  | readHead r k => exact readHead_moves hs
  | checkHead r k => exact checkHead_moves (Option.some.inj hs)
  | readBody r k => exact readBody_moves hs
  | copyBody r k =>
      cases hs
      exact .copies
  | disconnect r k outcome =>
      cases hs
      exact .disconnects
  | unlock f =>
      cases hs
      exact .unlocks

end Moves

/-- What a step of a shared client finds and what it leaves. -/
inductive SharedStep (b : Bindings ep World) (s : SharedClient ep World) :
    Act ep World → SharedClient ep World → Prop where
  | calls {i : Nat} {r : Request} (hi : s.threads[i]? = some .idle) :
      SharedStep b s (.call i r) { s with threads := s.threads.set i (.lock r) }
  | moves {i : Nat} {remains : Remains requestHeaderLen} {ec : Option (String × Nat)}
      {p q : Place} {net' : Network ep World} {client' : Client} (hi : s.threads[i]? = some p)
      (hmove : Move b s.net s.client i remains p net' client' q) :
      SharedStep b s (.thread i remains ec) ⟨net', client', s.threads.set i q, s.finished ++ p.ends⟩
  | expires : SharedStep b s .timer { s with client := s.client.disconnect }
  | network {a : EasyRpcRemoteCall.Act ep World} {net' : Network ep World}
      (hmover : ∀ k, mover a = some k → s.inHand k = false)
      (hstep : s.net.step b a = some net') : SharedStep b s (.net a) { s with net := net' }

/-- **STEP INVERSION**. -/
theorem shared_cases {b : Bindings ep World} {s s' : SharedClient ep World} {a : Act ep World}
    (hs : s.step b a = some s') : SharedStep b s a s' := by
  cases a with
  | call i r =>
      simp only [SharedClient.step] at hs
      split at hs
      · rename_i hi
        cases hs
        exact .calls hi
      · cases hs
  | thread i remains ec =>
      simp only [SharedClient.step] at hs
      split at hs
      · cases hs
      · rename_i p hi
        obtain ⟨⟨net', client', q⟩, hmove, rfl⟩ := Option.map_eq_some_iff.mp hs
        exact .moves hi (move_cases hmove)
  | timer =>
      cases hs
      exact .expires
  | net a =>
      obtain ⟨hmover, hs⟩ := Option.ite_none_left_eq_some.mp hs
      obtain ⟨net', hstep, rfl⟩ := Option.map_eq_some_iff.mp hs
      refine .network (fun k hk => ?_) hstep
      rw [hk, Option.any_some, Bool.not_eq_true] at hmover
      exact hmover

/-! ## Where a thread stands -/

/-- Call `k` is that of the request, and has come to the stage. -/
def IsAt (net : Network ep World) (r : Request) (k : Nat) (stage : Stage) : Prop :=
  ∃ c, net.callers[k]? = some c ∧ c.protocol = r.protocol ∧ c.mode = r.mode ∧ c.body = r.body
    ∧ c.stage = stage

/-- What `check_head` makes of `head_`. -/
def checkedStage (head : CharArray responseHeaderLen) : Stage :=
  match RpcSession.checkHead head with
  | .error what => .failed what
  | .ok resHead => .readBody resHead

/-- How a call ends in the network. -/
def endStage : Except String (List UInt8) → Stage
  | .ok body => .returned body
  | .error what => .failed what

/-- The call in hand, and where it is by the client's fields. -/
def Place.claim (client : Client) : Place → Option (Request × Nat × Stage)
  | .idle | .lock _ | .connect _ | .unlock (.unconnected _ _) => none
  | .write r k => some (r, k, .write)
  | .readHead r k => some (r, k, .readHead)
  | .checkHead r k => some (r, k, checkedStage client.head)
  | .readBody r k => some (r, k, .readBody client.resHead)
  | .copyBody r k => some (r, k, .returned client.body)
  | .disconnect r k outcome => some (r, k, endStage outcome)
  | .unlock (.called r k outcome) => some (r, k, endStage outcome)

/-- **THE CLAIM HOLDS**: the call is there, and no other one is on the socket. -/
def Stands (net : Network ep World) (client : Client) (p : Place) : Prop :=
  ∀ r k stage, p.claim client = some (r, k, stage) →
    IsAt net r k stage ∧ ∀ j, client.socket = some j → j = k

theorem Stands.of_none {net : Network ep World} {client : Client} {p : Place}
    (h : p.claim client = none) : Stands net client p := by
  intro r k stage hclaim
  rw [h] at hclaim
  cases hclaim

theorem Stands.of_claim {net : Network ep World} {client : Client} {p : Place} {r : Request}
    {k : Nat} {stage : Stage} (hp : p.claim client = some (r, k, stage))
    (hat : IsAt net r k stage) (hsocket : ∀ j, client.socket = some j → j = k) :
    Stands net client p := by
  intro r' k' stage' hclaim
  cases hp.symm.trans hclaim
  exact ⟨hat, hsocket⟩

section Steps

variable {b : Bindings ep World} {net net' : Network ep World} {r : Request} {k : Nat}
  {stage : Stage}

theorem isAt_set {c : Caller} (hc : net.callers[k]? = some c) {c' : Caller}
    (hp : c'.protocol = r.protocol) (hm : c'.mode = r.mode) (hb : c'.body = r.body) :
    IsAt { net with callers := net.callers.set k c' } r k c'.stage :=
  ⟨c', getElem?_set_moved hc, hp, hm, hb, rfl⟩

/-- A step of the call in hand. -/
theorem IsAt.moves (h : IsAt net r k stage) {f : Caller → Option Caller}
    (hs : net.onCaller k f = some net') (hf : ∀ c c', f c = some c' → Waits c c') :
    ∃ c c', c.protocol = r.protocol ∧ c.mode = r.mode ∧ c.body = r.body ∧ c.stage = stage
      ∧ net.callers[k]? = some c ∧ f c = some c' ∧ IsAt net' r k c'.stage := by
  obtain ⟨c, hc, hp, hm, hb, hstage⟩ := h
  obtain ⟨c₁, c', hc₁, hmove, rfl⟩ := onCaller_some hs
  cases hc.symm.trans hc₁
  obtain ⟨hp', hm', hb', -⟩ := hf c c' hmove
  exact ⟨c, c', hp, hm, hb, hstage, hc, hmove,
    isAt_set hc (hp'.trans hp) (hm'.trans hm) (hb'.trans hb)⟩

/-- A step of the network leaves a call where it is, unless it is the call that moves. -/
theorem IsAt.step (h : IsAt net r k stage) {a : EasyRpcRemoteCall.Act ep World}
    (hs : net.step b a = some net') (hk : mover a = some k → stage.status ≠ .waiting) :
    IsAt net' r k stage := by
  obtain ⟨c, hc, hp, hm, hb, hstage⟩ := h
  have hmoved : ∀ {j : Nat} {c₁ c' : Caller}, mover a = some j → net.callers[j]? = some c₁ →
      Waits c₁ c' → IsAt { net with callers := net.callers.set j c' } r k stage := by
    intro j c₁ c' hmover hc₁ hwaits
    by_cases hjk : j = k
    · subst hjk
      cases hc.symm.trans hc₁
      exact absurd (hstage ▸ hwaits.waiting) (hk hmover)
    · exact ⟨c, (List.getElem?_set_ne hjk).trans hc, hp, hm, hb, hstage⟩
  have hserved : ∀ {j : Nat} {c₁ c' : Caller} (server : Server ep World),
      net.callers[j]? = some c₁ → c'.protocol = c₁.protocol → c'.mode = c₁.mode →
      c'.body = c₁.body → c'.stage = c₁.stage →
      IsAt { net with server := server, callers := net.callers.set j c' } r k stage := by
    intro j c₁ c' server hc₁ hp' hm' hb' hstage'
    by_cases hjk : j = k
    · subst hjk
      cases hc.symm.trans hc₁
      exact ⟨c', getElem?_set_moved hc, hp'.trans hp, hm'.trans hm, hb'.trans hb,
        hstage'.trans hstage⟩
    · exact ⟨c, (List.getElem?_set_ne hjk).trans hc, hp, hm, hb, hstage⟩
  cases step_cases hs with
  | connects =>
      have hlt := (List.getElem?_eq_some_iff.mp hc).1
      exact ⟨c, (List.getElem?_append_left hlt).trans hc, hp, hm, hb, hstage⟩
  | writes hc₁ hmove => exact hmoved rfl hc₁ (write_waits hmove)
  | readsHead hc₁ hmove => exact hmoved rfl hc₁ (readHead_waits hmove)
  | readsBody hc₁ hmove => exact hmoved rfl hc₁ (readBody_waits hmove)
  | accepts | runs | server => exact ⟨c, hc, hp, hm, hb, hstage⟩
  | headReads hk' hc₁ => exact hserved _ hc₁ rfl rfl rfl rfl
  | bodyReads hk' hc₁ => exact hserved _ hc₁ rfl rfl rfl rfl
  | responds hrun hk' hc₁ => exact hserved _ hc₁ rfl rfl rfl rfl

/-- A caller whose write is refused, or fails, is done. -/
theorem write_fails {c c' : Caller} {remains : Remains requestHeaderLen} {what : String}
    {sent : Nat} (hstage : c.stage = .write) {buffers : List (List UInt8)}
    (hwrite : RpcSession.write c.protocol c.mode c.body remains = .ok buffers)
    (hmove : c.write remains (some (what, sent)) = some c') : c'.stage = .failed what := by
  simp only [Caller.write, hstage, hwrite] at hmove
  cases hmove
  rfl

/-- What a call makes of the header it reads is what `check_head` makes of the same bytes. -/
theorem readHead_checks {c c' : Caller} (hstage : c.stage = .readHead)
    {head : { bytes : List UInt8 // bytes.length = responseHeaderLen }}
    {response : Stream UInt8} (hread : c.response.read responseHeaderLen = some (head, response))
    (hmove : c.readHead none = some c') :
    c'.stage = checkedStage (charArray head) := by
  simp only [Caller.readHead, hstage, hread] at hmove
  rw [checkedStage, charArray]
  split at hmove <;>
    (rename_i hcheck
     cases hmove
     rw [hcheck])

/-- The read of the body, as the network has it. -/
theorem readBody_reads {c : Caller} {resHead : ResponseHeader}
    (hstage : c.stage = .readBody resHead)
    {body : { bytes : List UInt8 // bytes.length = resHead.bodyLen.toNat }}
    {response : Stream UInt8}
    (hread : c.response.read resHead.bodyLen.toNat = some (body, response)) :
    c.readBody none = some { c with response := response, stage := .returned body.val } := by
  simp only [Caller.readBody, hstage, hread]

end Steps

section Moves

variable {b : Bindings ep World} {net net' : Network ep World} {client client' : Client}
  {i : Nat} {remains : Remains requestHeaderLen} {p q : Place}

/-- A body read by the client's fields is the body of the call. -/
theorem Stands.reads_body {r : Request} {k k' : Nat} {c : Caller}
    {body : { bytes : List UInt8 // bytes.length = client.resHead.bodyLen.toNat }}
    {response : Stream UInt8} (hS : Stands net client (.readBody r k))
    (hsocket : client.socket = some k') (hc : net.callers[k']? = some c)
    (hread : c.response.read client.resHead.bodyLen.toNat = some (body, response)) :
    net.step b (.readBody k none) = some { net with
      callers := net.callers.set k'
        { c with response := response, stage := .returned body.val } } := by
  obtain ⟨⟨c, hc', -, -, -, hstage⟩, halone⟩ := hS _ _ _ rfl
  cases halone _ hsocket
  cases hc.symm.trans hc'
  simp only [Network.step, Network.onCaller, hc, readBody_reads hstage hread]
  rfl

/-- The steps of the network that a thread takes from its place. -/
def Place.Does (p : Place) (remains : Remains requestHeaderLen) :
    EasyRpcRemoteCall.Act ep World → Prop
  | .connect protocol mode body => p = .connect ⟨protocol, mode, body⟩
  | .write _ sent _ => sent = remains
  | .readHead _ _ => True
  | .readBody _ _ => True
  | _ => False

/-- **A MOVE IS A STEP OF THE NETWORK**, or none. -/
theorem Move.step (h : Move b net client i remains p net' client' q) (hS : Stands net client p) :
    net' = net ∨ ∃ a, net.step b a = some net' ∧ p.Does remains a := by
  cases h with
  | locks | unconnected | headRefused | headAccepted | copies | disconnects | unlocks =>
      exact Or.inl rfl
  | connects hstep => exact Or.inr ⟨_, hstep, rfl⟩
  | tooBig _ hstep | writes _ _ hstep | writeFails _ _ hstep => exact Or.inr ⟨_, hstep, rfl⟩
  | headFails hstep | headReads _ _ _ hstep | bodyFails hstep =>
      exact Or.inr ⟨_, hstep, trivial⟩
  | bodyReads hsocket hc hread => exact Or.inr ⟨_, hS.reads_body hsocket hc hread, trivial⟩

/-- **A THREAD STANDS WHERE ITS MOVES TAKE IT**. -/
theorem Move.stands (h : Move b net client i remains p net' client' q) (hS : Stands net client p) :
    Stands net' client' q := by
  cases h with
  | locks | unconnected | unlocks => exact .of_none rfl
  | @connects r net' hstep =>
      cases hstep
      refine .of_claim rfl ⟨.connect r.protocol r.mode r.body, ?_, rfl, rfl, rfl, rfl⟩ ?_
      · exact List.getElem?_concat_length
      · intro j hj
        exact (Option.some.inj hj).symm
  | tooBig hwrite hstep =>
      obtain ⟨hat, halone⟩ := hS _ _ _ rfl
      obtain ⟨c, c', hp, hm, hb, hstage, -, hmove, hat'⟩ := hat.moves hstep fun _ _ => write_waits
      refine .of_claim rfl ?_ halone
      simp only [Caller.write, hstage, hp, hm, hb, hwrite] at hmove
      cases hmove
      exact hat'
  | writes hwrite hsocket hstep =>
      obtain ⟨hat, halone⟩ := hS _ _ _ rfl
      cases halone _ hsocket
      obtain ⟨c, c', hp, hm, hb, hstage, -, hmove, hat'⟩ := hat.moves hstep fun _ _ => write_waits
      refine .of_claim rfl ?_ halone
      simp only [Caller.write, hstage, hp, hm, hb, hwrite] at hmove
      cases hmove
      exact hat'
  | writeFails hwrite hsocket hstep =>
      obtain ⟨hat, halone⟩ := hS _ _ _ rfl
      cases hsocket.elim (halone _) id
      obtain ⟨c, c', hp, hm, hb, hstage, -, hmove, hat'⟩ := hat.moves hstep fun _ _ => write_waits
      refine .of_claim rfl ?_ halone
      rwa [write_fails hstage (by rw [hp, hm, hb]; exact hwrite) hmove] at hat'
  | headFails hstep =>
      obtain ⟨hat, halone⟩ := hS _ _ _ rfl
      obtain ⟨c, c', -, -, -, hstage, -, hmove, hat'⟩ := hat.moves hstep fun _ _ => readHead_waits
      refine .of_claim rfl ?_ halone
      simp only [Caller.readHead, hstage] at hmove
      cases hmove
      exact hat'
  | headReads hsocket hc hread hstep =>
      obtain ⟨hat, halone⟩ := hS _ _ _ rfl
      cases halone _ hsocket
      obtain ⟨c, c', -, -, -, hstage, hc', hmove, hat'⟩ :=
        hat.moves hstep fun _ _ => readHead_waits
      cases hc.symm.trans hc'
      refine .of_claim rfl ?_ halone
      rwa [readHead_checks hstage hread hmove] at hat'
  | headRefused hcheck =>
      obtain ⟨hat, halone⟩ := hS _ _ _ rfl
      refine .of_claim rfl ?_ halone
      rwa [checkedStage, hcheck] at hat
  | headAccepted hcheck =>
      obtain ⟨hat, halone⟩ := hS _ _ _ rfl
      refine .of_claim rfl ?_ halone
      rw [checkedStage, hcheck] at hat
      -- `res_head_` is what the check has accepted
      rw [RpcSession.checkHead] at hcheck
      split at hcheck
      · cases hcheck
      · cases hcheck
        exact hat
  | bodyFails hstep =>
      obtain ⟨hat, halone⟩ := hS _ _ _ rfl
      obtain ⟨c, c', -, -, -, hstage, -, hmove, hat'⟩ := hat.moves hstep fun _ _ => readBody_waits
      refine .of_claim rfl ?_ halone
      simp only [Caller.readBody, hstage] at hmove
      cases hmove
      exact hat'
  | bodyReads hsocket hc hread =>
      obtain ⟨⟨c, hc', hp, hm, hb, -⟩, halone⟩ := hS _ _ _ rfl
      cases halone _ hsocket
      cases hc.symm.trans hc'
      exact .of_claim rfl ⟨_, getElem?_set_moved hc, hp, hm, hb, rfl⟩ halone
  | copies =>
      obtain ⟨hat, halone⟩ := hS _ _ _ rfl
      exact .of_claim rfl hat halone
  | disconnects =>
      obtain ⟨hat, -⟩ := hS _ _ _ rfl
      refine .of_claim rfl hat fun j hj => ?_
      cases hj

/-- A thread moves alone: it is behind the mutex, or nobody is. -/
theorem Move.alone (h : Move b net client i remains p net' client' q) :
    p.inside = true ∨ client.mutex = none := by
  cases h with
  | locks hfree => exact Or.inr hfree
  | unconnected | connects | tooBig | writes | writeFails | headFails | headReads | headRefused
  | headAccepted | bodyFails | bodyReads | copies | disconnects | unlocks => exact Or.inl rfl

/-- **THE MUTEX**: every move keeps at most one thread between `lock` and `unlock`. -/
theorem Move.guarded (h : Move b net client i remains p net' client' q) {l : List Place}
    (hG : Guarded Place.inside client.mutex l) (hi : l[i]? = some p) :
    Guarded Place.inside client'.mutex (l.set i q) := by
  cases h with
  | locks hfree =>
      rw [hfree] at hG
      exact hG.lock hi rfl
  | unlocks => exact hG.unlock hi rfl rfl
  | unconnected | connects | tooBig | writes | writeFails | headFails | headReads | headRefused
  | headAccepted | bodyFails | bodyReads | copies | disconnects => exact hG.move hi rfl

/-- A call comes into hand with its connection, and goes when the mutex does. -/
theorem Move.call (h : Move b net client i remains p net' client' q) :
    q.call = p.call ∧ p.ends = [] ∨ q.call = some net.callers.length ∧ p.ends = []
    ∨ ∃ f, p = .unlock f ∧ q = .idle := by
  cases h with
  | connects => exact Or.inr (Or.inl ⟨rfl, rfl⟩)
  | unlocks => exact Or.inr (Or.inr ⟨_, rfl, rfl⟩)
  | locks | unconnected | tooBig | writes | writeFails | headFails | headReads | headRefused
  | headAccepted | bodyFails | bodyReads | copies | disconnects => exact Or.inl ⟨rfl, rfl⟩

end Moves

/-! ## The invariant -/

/-- A thread with a call of the network is inside of the mutex. -/
theorem inside_of_call {p : Place} {k : Nat} (h : p.call = some k) : p.inside = true := by
  cases p <;> first | rfl | cases h

theorem call_of_claim {p : Place} {client : Client} {r : Request} {k : Nat} {stage : Stage}
    (h : p.claim client = some (r, k, stage)) : p.call = some k := by
  cases p with
  | idle | lock | connect => cases h
  | write | readHead | checkHead | readBody | copyBody | disconnect =>
      cases h
      rfl
  | unlock f =>
      cases f with
      | unconnected => cases h
      | called =>
          cases h
          rfl

/-- A thread without a call in hand stands anywhere. -/
theorem Stands.of_outside {net : Network ep World} {client : Client} {p : Place}
    (h : p.inside = false) : Stands net client p := by
  intro r k stage hclaim
  rw [inside_of_call (call_of_claim hclaim)] at h
  cases h

/-- The calls that have ended. -/
def SharedClient.ended (s : SharedClient ep World) : List Nat := s.finished.filterMap Finished.call

/-- The calls that have ended are those that were finished with a connection. -/
theorem mem_ended {s : SharedClient ep World} {k : Nat} :
    k ∈ s.ended ↔ ∃ r outcome, .called r k outcome ∈ s.finished := by
  rw [SharedClient.ended, List.mem_filterMap]
  constructor
  · rintro ⟨f, hmem, hcall⟩
    cases f with
    | unconnected => cases hcall
    | called r k' outcome =>
        cases hcall
        exact ⟨r, outcome, hmem⟩
  · rintro ⟨r, outcome, hmem⟩
    exact ⟨_, hmem, rfl⟩

/-- **THE INVARIANT** of a shared client. -/
structure SharedInv (s : SharedClient ep World) : Prop where
  guarded : Guarded Place.inside s.client.mutex s.threads
  stands : ∀ (i : Nat) p, s.threads[i]? = some p → Stands s.net s.client p
  finished : ∀ r k outcome, .called r k outcome ∈ s.finished →
    IsAt s.net r k (endStage outcome)
  once : s.ended.Nodup
  apart : ∀ (i : Nat) p k, s.threads[i]? = some p → p.call = some k → k ∉ s.ended

theorem mem_ends {p : Place} {f : Finished} : f ∈ p.ends ↔ p = .unlock f := by
  cases p with
  | unlock g =>
      rw [Place.ends, List.mem_singleton, Place.unlock.injEq]
      exact eq_comm
  | idle | lock | connect | write | readHead | checkHead | readBody | copyBody | disconnect =>
      exact ⟨fun h => (List.not_mem_nil h).elim, fun h => by cases h⟩

/-- What a thread about to unlock has finished is its call. -/
theorem call_of_ends {p : Place} {k : Nat} (h : k ∈ p.ends.filterMap Finished.call) :
    p.call = some k := by
  obtain ⟨f, hmem, hcall⟩ := List.mem_filterMap.mp h
  rw [mem_ends.mp hmem]
  exact hcall

theorem ends_nodup (p : Place) : (p.ends.filterMap Finished.call).Nodup := by
  cases p with
  | unlock f =>
      cases f with
      | unconnected => exact List.nodup_nil
      | called r k outcome => exact List.pairwise_singleton _ k
  | idle | lock | connect | write | readHead | checkHead | readBody | copyBody | disconnect =>
      exact List.nodup_nil

theorem endStage_status (outcome : Except String (List UInt8)) :
    (endStage outcome).status ≠ .waiting := by
  cases outcome <;> exact nofun

section Inv

variable {b : Bindings ep World} {s s' : SharedClient ep World}

/-- What has ended stays as it ended. -/
theorem SharedInv.finished_step (h : SharedInv s) {net' : Network ep World}
    (hnet : net' = s.net ∨ ∃ a, s.net.step b a = some net') {r : Request} {k : Nat}
    {outcome : Except String (List UInt8)} (hmem : .called r k outcome ∈ s.finished) :
    IsAt net' r k (endStage outcome) := by
  have hat := h.finished r k outcome hmem
  rcases hnet with rfl | ⟨a, hstep⟩
  · exact hat
  · exact hat.step hstep fun _ => endStage_status outcome

/-- A connection's call is new. -/
theorem SharedInv.fresh (h : SharedInv s) : s.net.callers.length ∉ s.ended := by
  intro hmem
  obtain ⟨r, outcome, hmem⟩ := mem_ended.mp hmem
  obtain ⟨c, hc, -⟩ := h.finished r _ outcome hmem
  exact absurd (List.getElem?_eq_some_iff.mp hc).1 (Nat.lt_irrefl _)

/-- A move of a thread. -/
theorem SharedInv.move (h : SharedInv s) {i : Nat} {remains : Remains requestHeaderLen}
    {p q : Place} {net' : Network ep World} {client' : Client} (hi : s.threads[i]? = some p)
    (hmove : Move b s.net s.client i remains p net' client' q) :
    SharedInv ⟨net', client', s.threads.set i q, s.finished ++ p.ends⟩ := by
  have hS := h.stands i p hi
  have hnet : net' = s.net ∨ ∃ a, s.net.step b a = some net' :=
    (hmove.step hS).imp_right fun ⟨a, ha, _⟩ => ⟨a, ha⟩
  -- the other threads are on the far side of the mutex
  have hothers : ∀ (j : Nat) x, i ≠ j → s.threads[j]? = some x → x.inside = false := by
    intro j x hne hj
    rw [← Bool.not_eq_true]
    intro hx
    rcases hmove.alone with hp | hfree
    · exact hne (h.guarded.exclusive hi hj hp hx)
    · rw [(h.guarded j).mpr ⟨x, hj, hx⟩] at hfree
      cases hfree
  refine ⟨hmove.guarded h.guarded hi, ?_, ?_, ?_, ?_⟩
  · intro j x hj
    rcases getElem?_set_some hj with ⟨-, rfl⟩ | ⟨hne, hj⟩
    · exact hmove.stands hS
    · exact .of_outside (hothers j x hne hj)
  · intro r k outcome hmem
    rcases List.mem_append.mp hmem with hmem | hmem
    · exact h.finished_step hnet hmem
    · obtain rfl := mem_ends.mp hmem
      cases hmove
      exact (hS _ _ _ rfl).1
  · show ((s.finished ++ p.ends).filterMap Finished.call).Nodup
    rw [List.filterMap_append]
    refine List.nodup_append.mpr ⟨h.once, ends_nodup p, ?_⟩
    rintro k hk _ hk' rfl
    exact h.apart i p k hi (call_of_ends hk') hk
  · intro j x k hj hcall hk
    rcases getElem?_set_some hj with ⟨rfl, rfl⟩ | ⟨hne, hj⟩
    · rcases hmove.call with ⟨hsame, hnil⟩ | ⟨hnew, hnil⟩ | ⟨f, -, rfl⟩
      · rw [hnil, List.append_nil] at hk
        exact h.apart i p k hi (hsame.symm.trans hcall) hk
      · rw [hnil, List.append_nil] at hk
        cases hnew.symm.trans hcall
        exact h.fresh hk
      · cases hcall
    · have hout := hothers j x hne hj
      rw [inside_of_call hcall] at hout
      cases hout

/-- **STEP**: every step of a shared client keeps the invariant. -/
theorem SharedInv.step (h : SharedInv s) {a : Act ep World} (hs : SharedStep b s a s') :
    SharedInv s' := by
  cases hs with
  | calls hi =>
      refine ⟨h.guarded.move hi rfl, ?_, h.finished, h.once, ?_⟩
      · intro j x hj
        rcases getElem?_set_some hj with ⟨-, rfl⟩ | ⟨-, hj⟩
        · exact .of_outside rfl
        · exact h.stands j x hj
      · intro j x k hj hcall
        rcases getElem?_set_some hj with ⟨-, rfl⟩ | ⟨-, hj⟩
        · cases hcall
        · exact h.apart j x k hj hcall
  | moves hi hmove => exact h.move hi hmove
  | expires =>
      refine ⟨h.guarded, fun i p hi r k stage hclaim => ?_, h.finished, h.once, h.apart⟩
      refine ⟨(h.stands i p hi r k stage ?_).1, nofun⟩
      rw [← hclaim]
      cases p <;> rfl
  | network hmover hstep =>
      refine ⟨h.guarded, fun i p hi r k stage hclaim => ?_, ?_, h.once, h.apart⟩
      · obtain ⟨hat, halone⟩ := h.stands i p hi r k stage hclaim
        refine ⟨hat.step hstep fun hk => absurd ?_ (Bool.not_eq_true _ ▸ hmover k hk), halone⟩
        exact List.any_eq_true.mpr
          ⟨p, List.mem_of_getElem? hi, beq_iff_eq.mpr (call_of_claim hclaim)⟩
      · exact fun r k outcome hmem => h.finished_step (Or.inr ⟨_, hstep⟩) hmem

end Inv

/-! ## Runs of a shared client -/

section Runs

variable {b : Bindings ep World} {s s' : SharedClient ep World}

theorem sharedInv_of_reachable (h : Reachable (sharedSystem b) s) : SharedInv s := by
  refine h.invariant ?_ fun s a s' hI _ hs => hI.step (shared_cases hs)
  rintro s ⟨-, hfree, hnone, hidle⟩
  have hplace : ∀ (i : Nat) p, s.threads[i]? = some p → p = .idle :=
    fun i p hi => hidle p (List.mem_of_getElem? hi)
  refine ⟨fun i => ?_, fun i p hi => ?_, ?_, ?_, fun i p k hi hcall => ?_⟩
  · rw [hfree]
    refine ⟨nofun, ?_⟩
    rintro ⟨p, hi, hin⟩
    cases hplace i p hi
    cases hin
  · cases hplace i p hi
    exact .of_none rfl
  · rw [hnone]
    exact fun _ _ _ hmem => nomatch hmem
  · rw [SharedClient.ended, hnone]
    exact List.nodup_nil
  · cases hplace i p hi
    cases hcall

/-- A step of a shared client is a step of the network, or none. -/
theorem SharedInv.net_step (h : SharedInv s) {a : Act ep World} (hs : SharedStep b s a s') :
    s'.net = s.net ∨ ∃ act, s.net.step b act = some s'.net := by
  cases hs with
  | calls | expires => exact Or.inl rfl
  | moves hi hmove =>
      exact (hmove.step (h.stands _ _ hi)).imp_right fun ⟨act, hact, _⟩ => ⟨act, hact⟩
  | network _ hstep => exact Or.inr ⟨_, hstep⟩

/-- The network's part of a run is a run of the network. -/
theorem net_of_reachable (h : Reachable (sharedSystem b) s) :
    Reachable (remoteSystem b) s.net := by
  refine h.simulation (J := SharedInv) SharedClient.net (fun _ => sharedInv_of_reachable) ?_ ?_
  · exact fun s hs => hs.1
  · exact fun s a s' hI _ hs => hI.net_step (shared_cases hs)

/-- **THREADS GET THEIR OWN**: of the threads that share a client one at most is between taking
    the mutex and giving it back, and no two of their calls are the same.  For a call that ended
    with a body a handler has run exactly once, and the body is what the call is handed of the
    result of that run: all of it, if the header of the response was still there when it was sent
    and the result fits its word.  If the thread's request went out under its own header, and fits
    it, the run was of the handler that the request names, on the request's body. -/
theorem threads_get_their_own (h : Reachable (sharedSystem b) s) :
    (∀ (i j : Nat) p q, s.threads[i]? = some p → s.threads[j]? = some q → p.inside = true →
      q.inside = true → i = j)
    ∧ s.ended.Nodup
    ∧ ∀ r k ret, .called r k (.ok ret) ∈ s.finished →
        ∃ c run result, s.net.callers[k]? = some c ∧ s.net.runsOf k = [run]
          ∧ run.outcome = .ok result ∧ handedOver result c.responseHead = some ret
          ∧ (c.responseHead = .kept → result.length < 2 ^ 32 → ret = result)
          ∧ (r.protocol.length + r.body.length < 2 ^ 32 → c.requestHead = .kept →
              b.find r.mode r.protocol = some run.entry ∧ run.body = r.body) := by
  have hI := sharedInv_of_reachable h
  have hnet := net_of_reachable h
  refine ⟨fun i j p q hi hj hp hq => hI.guarded.exclusive hi hj hp hq, hI.once, ?_⟩
  intro r k ret hmem
  obtain ⟨c, hc, hp, hm, hb, hstage⟩ := hI.finished r k _ hmem
  obtain ⟨run, result, hruns, houtcome, hover, hserved⟩ :=
    (netInv_of_reaches hnet).returned (serverInv_of_reachable (server_of_reaches hnet)) hc hstage
  refine ⟨c, run, result, hc, hruns, houtcome, hover, ?_, fun hfits hkept => ?_⟩
  · intro hkept hlt
    rw [hkept] at hover
    exact handedOver_of_lt hlt hover
  · rw [hp, hm, hb] at hserved
    refine hserved (.of_kept ?_ hkept)
    rw [Fits, hp, hb]
    exact hfits

end Runs

/-- The echo of call `k`, its worker having `n` steps to go to the task. -/
def echoed (k n : Nat) : List (EasyRpcRemoteCall.Act bytePack Unit) :=
  [.accept k 0 0, .headRead k, .server (.headHandler k), .bodyRead k, .server (.bodyHandler k),
    .server (.pool (.producer 0 none)), .server (.pool (.producer 0 none)),
    .server (.pool (.producer 0 none)), .server (.routeReturns k)]
  ++ List.replicate n (.server (.pool (.worker 0 none)))
  ++ [.runHandler 0 ⟨(), [], []⟩, .respond 0 .kept none]

/-- A call of thread `i`, from the mutex to the mutex. -/
def threadCall (i n : Nat) : List (Act bytePack Unit) :=
  List.replicate 3 (.thread i .kept none) ++ (echoed i n).map .net
    ++ List.replicate 6 (.thread i .kept none)

/-- Two threads share a client that nobody has used. -/
def sharedByTwo : SharedClient bytePack Unit :=
  ⟨⟨⟨.initial 1 1, [], []⟩, [], [], []⟩, ⟨none, none, .zero 4, ⟨0⟩, []⟩,
    [.idle, .idle], []⟩

/-- Two threads with one client, before their first call. -/
theorem sharedByTwo_start : (sharedSystem echoBindings).start sharedByTwo := by
  refine ⟨⟨_, ⟨1, 1, rfl⟩, rfl⟩, rfl, rfl, fun p hp => ?_⟩
  exact List.eq_of_mem_replicate (n := 2) hp

/-- Both of them call, and one waits for the other. -/
def twoCalls : List (Act bytePack Unit) :=
  [.call 0 ⟨[101], .nonRaw, [7]⟩, .call 1 ⟨[101], .nonRaw, [9]⟩] ++ threadCall 0 1
    ++ threadCall 1 2

/-- Two threads call one echo, each with a body of its own, and each gets its own. -/
theorem threads_get_their_own_echo : ∃ s : SharedClient bytePack Unit,
    s.finished = [.called ⟨[101], .nonRaw, [7]⟩ 0 (.ok [7]),
      .called ⟨[101], .nonRaw, [9]⟩ 1 (.ok [9])]
    ∧ s.ended.Nodup
    ∧ ∃ run, s.net.runsOf 1 = [run] ∧ run.outcome = .ok [9]
      ∧ echoBindings.find .nonRaw [101] = some run.entry ∧ run.body = [9] := by
  have hexec : exec (sharedSystem echoBindings) sharedByTwo twoCalls = some _ := rfl
  have hreach := (Reachable.start sharedByTwo_start).exec hexec
  obtain ⟨-, honce, hown⟩ := threads_get_their_own hreach
  obtain ⟨c, run, result, hc, hruns, houtcome, -, -, hserved⟩ :=
    hown ⟨[101], .nonRaw, [9]⟩ 1 [9] (List.mem_cons_of_mem _ List.mem_cons_self)
  cases hc
  cases hruns
  cases houtcome
  exact ⟨_, rfl, honce, _, rfl, rfl, hserved (by decide) rfl⟩

end EasyRpcSharedClient
