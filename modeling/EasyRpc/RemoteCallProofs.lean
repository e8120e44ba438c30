import EasyRpc.ByteStreamProofs
import EasyRpc.RoundTripProofs
import EasyRpc.ServerStepProofs

/-! # Remote calls — callers and the server over byte streams

    Any number of calls, each on a connection of its own, run against one server.  The streams
    between a call and its connection deliver bytes in order and at any pace; a write that fails
    may have got any part of its frame through, a read may fail at any time, and either end may
    give up while the other goes on.

    Both headers are read from memory that they have left, so a call records what was left of each
    of them.

    Nothing in a frame names its call: a response finds its caller because the connection does.
    The invariant is one of a call and its connection (`Link`): what the connection has read of
    the request, that its task is the one the call asks for if the header said the truth about it,
    and that what was sent back is the frame of one run's result, or the beginning of it. -/

namespace EasyRpcRemoteCall

open Transition ThreadTable Throwing ByteStream EasyRpcWire EasyRpcConnection EasyRpcDispatch
open EasyRpcThreadPool EasyRpcTaskCustody EasyRpcRoundTrip EasyRpcServer

variable {ep : Easypack} {World : Type}

/-- Where a call is, from `session_.connect()` to the end of `session_.call`. -/
inductive Stage where
  | write
  | readHead
  | readBody (resHead : ResponseHeader)
  | returned (body : List UInt8)
  | failed (what : String)

/-- A call and the two streams of its connection, with what was left of the two headers when they
    were sent. -/
structure Caller where
  protocol : Str
  mode : CallMode
  body : Str
  stage : Stage
  request : Stream UInt8
  response : Stream UInt8
  requestHead : Remains requestHeaderLen
  responseHead : Remains responseHeaderLen

namespace Caller

/-- A call that has got its connection and has sent nothing. -/
def connect (protocol : Str) (mode : CallMode) (body : Str) : Caller :=
  ⟨protocol, mode, body, .write, .empty, .empty, .kept, .kept⟩

/-- `rpc_session::write`; an error comes with the number of bytes that were sent all the same. -/
def write (c : Caller) (remains : Remains requestHeaderLen) (ec : Option (String × Nat)) :
    Option Caller :=
  match c.stage with
  | .write =>
      match RpcSession.write c.protocol c.mode c.body remains, ec with
      | .error what, _ => some { c with stage := .failed what }
      | .ok buffers, none =>
          some { c with
            request := c.request.write buffers.flatten
            stage := .readHead
            requestHead := remains }
      | .ok buffers, some (what, sent) =>
          some { c with
            request := c.request.write (buffers.flatten.take sent)
            stage := .failed what
            requestHead := remains }
  | _ => none

/-- `read_head` and `check_head`. -/
def readHead (c : Caller) (ec : Option String) : Option Caller :=
  match c.stage, ec with
  | .readHead, some what => some { c with stage := .failed what }
  | .readHead, none =>
      match c.response.read responseHeaderLen with
      | none => none
      | some (head, response) =>
          match RpcSession.checkHead ⟨head.val, head.property⟩ with
          | .error what => some { c with response := response, stage := .failed what }
          | .ok resHead => some { c with response := response, stage := .readBody resHead }
  | _, _ => none

/-- `read_body`. -/
def readBody (c : Caller) (ec : Option String) : Option Caller :=
  match c.stage, ec with
  | .readBody _, some what => some { c with stage := .failed what }
  | .readBody resHead, none =>
      match c.response.read resHead.bodyLen.toNat with
      | none => none
      | some (body, response) => some { c with response := response, stage := .returned body.val }
  | _, _ => none

/-- The header that went out in front of the request. -/
def wireHead (c : Caller) : CharArray requestHeaderLen :=
  sentHead c.protocol c.mode c.body c.requestHead

/-- The request as it goes over the connection. -/
def requestFrame (c : Caller) : List UInt8 := c.wireHead.bytes ++ (c.protocol ++ c.body)

end Caller

/-- A run of a handler: the task it ran for, and what it found. -/
structure Run (ep : Easypack) (World : Type) where
  conn : Nat
  entry : Entry ep World
  body : Str
  call : Call World

/-- What the function of a run came to. -/
def Run.outcome (run : Run ep World) : Except Exn Str := run.entry.outcome run.body run.call

/-- The server and the clients' calls, with the bytes between them. -/
structure Network (ep : Easypack) (World : Type) where
  server : Server ep World
  callers : List Caller
  -- the call that each accepted connection belongs to
  accepted : List Nat
  runs : List (Run ep World)

/-- What a worker's response puts on the connection; an error comes with the number of bytes that
    were sent all the same. -/
def responseBytes (c : Connection) (task : RequestTask ep World)
    (remains : Remains responseHeaderLen) (ec : Option (String × Nat)) : List UInt8 :=
  match task.result with
  | some (.ok result) =>
      match c.write result remains none, ec with
      | .error _, _ => []
      | .ok _, none => responseFrame result remains
      | .ok _, some (_, sent) => (responseFrame result remains).take sent
  | _ => []

/-- What can happen: each end of each connection goes on by itself, and every transfer may fail or
    stop short. -/
inductive Act (ep : Easypack) (World : Type) where
  | connect (protocol : Str) (mode : CallMode) (body : Str)
  | write (k : Nat) (remains : Remains requestHeaderLen) (ec : Option (String × Nat))
  | readHead (k : Nat) (ec : Option String)
  | readBody (k : Nat) (ec : Option String)
  -- the server accepts the connection of call `k`
  | accept (k io timeoutMilli : Nat)
  -- a read of connection `n` completes with the bytes it asked for
  | headRead (n : Nat)
  | bodyRead (n : Nat)
  | runHandler (i : Nat) (call : Call World)
  | respond (i : Nat) (remains : Remains responseHeaderLen) (ec : Option (String × Nat))
  | server (a : EasyRpcServer.Act ep World)

/-- The steps of the server that concern no call: its handlers, its timers, the pool, and the
    reads that fail. -/
def isInternal : EasyRpcServer.Act ep World → Bool
  | .headRead _ result => result.isNone
  | .bodyRead _ result => result.isNone
  | .accept _ _ => false
  | .runHandler _ _ => false
  | .respond _ _ _ => false
  | _ => true

namespace Network

variable (b : Bindings ep World) (net : Network ep World)

/-- One call goes on. -/
def onCaller (k : Nat) (f : Caller → Option Caller) : Option (Network ep World) :=
  match net.callers[k]? with
  | none => none
  | some c => (f c).map fun c => { net with callers := net.callers.set k c }

/-- The call that the connection belongs to. -/
def callerOf (n : Nat) : Option (Nat × Caller) :=
  net.accepted[n]?.bind fun k => net.callers[k]?.map fun c => (k, c)

/-- A read of connection `n` takes its bytes from the stream of its call. -/
def serverReads (n len : Nat)
    (act : { bytes : List UInt8 // bytes.length = len } → EasyRpcServer.Act ep World) :
    Option (Network ep World) :=
  match net.callerOf n with
  | none => none
  | some (k, c) =>
      match c.request.read len with
      | none => none
      | some (bytes, request) =>
          (net.server.step b (act bytes)).map fun s =>
            { net with server := s, callers := net.callers.set k { c with request := request } }

/-- The server reads a body: as many of the bytes on their way as it asked for. -/
def bodyRead (n : Nat) : Option (Network ep World) :=
  match net.server.conns[n]? with
  | none => none
  | some a =>
      net.serverReads b n a.conn.protocolAndBody.length fun bytes => .bodyRead n (some bytes.val)

/-- A worker runs the function of its task, and the run is recorded. -/
def runHandler (i : Nat) (call : Call World) : Option (Network ep World) :=
  match net.server.pool.workers[i]? with
  | some (.run task) =>
      (net.server.step b (.runHandler i call)).map fun s =>
        { net with server := s, runs := net.runs ++ [⟨task.conn, task.entry, task.body, call⟩] }
  | _ => none

/-- A worker writes the response of its task, of which the client gets what was transferred. -/
def respond (i : Nat) (remains : Remains responseHeaderLen) (ec : Option (String × Nat)) :
    Option (Network ep World) :=
  match net.server.pool.workers[i]? with
  | some (.run task) =>
      match net.callerOf task.conn, net.server.conns[task.conn]? with
      | some (k, c), some a =>
          (net.server.step b (.respond i remains (ec.map Prod.fst))).map fun s =>
            { net with
              server := s
              callers := net.callers.set k { c with
                response := c.response.write (responseBytes a.conn task remains ec)
                responseHead := remains } }
      | _, _ => none
  | _ => none

/-- One step of the network. -/
def step : Act ep World → Option (Network ep World)
  | .connect protocol mode body =>
      some { net with callers := net.callers ++ [.connect protocol mode body] }
  | .write k remains ec => net.onCaller k (·.write remains ec)
  | .readHead k ec => net.onCaller k (·.readHead ec)
  | .readBody k ec => net.onCaller k (·.readBody ec)
  | .accept k io timeoutMilli =>
      if k < net.callers.length ∧ k ∉ net.accepted then
        (net.server.step b (.accept io timeoutMilli)).map fun s =>
          { net with server := s, accepted := net.accepted ++ [k] }
      else none
  | .headRead n =>
      net.serverReads b n requestHeaderLen fun bytes =>
        .headRead n (some ⟨bytes.val, bytes.property⟩)
  | .bodyRead n => net.bodyRead b n
  | .runHandler i call => net.runHandler b i call
  | .respond i remains ec => net.respond b i remains ec
  | .server a =>
      if isInternal a then (net.server.step b a).map fun s => { net with server := s } else none

end Network

/-- A server before its first connection, and no calls yet. -/
def remoteSystem (b : Bindings ep World) : System (Network ep World) (Act ep World) where
  start net := ∃ s, (serverSystem b).start s ∧ net = ⟨s, [], [], []⟩
  step net := net.step b

/-! ## The steps by their effect -/

theorem callerOf_some {net : Network ep World} {n k : Nat} {c : Caller}
    (h : net.callerOf n = some (k, c)) : net.accepted[n]? = some k ∧ net.callers[k]? = some c := by
  obtain ⟨k', hk, h⟩ := Option.bind_eq_some_iff.mp h
  obtain ⟨c', hc, h⟩ := Option.map_eq_some_iff.mp h
  cases h
  exact ⟨hk, hc⟩

/-- What a step of the network finds and what it leaves. -/
inductive Step (b : Bindings ep World) (net : Network ep World) :
    Act ep World → Network ep World → Prop where
  | connects (protocol : Str) (mode : CallMode) (body : Str) :
      Step b net (.connect protocol mode body)
        { net with callers := net.callers ++ [.connect protocol mode body] }
  | writes {k : Nat} {remains : Remains requestHeaderLen} {ec : Option (String × Nat)}
      {c c' : Caller} (hc : net.callers[k]? = some c) (hmove : c.write remains ec = some c') :
      Step b net (.write k remains ec) { net with callers := net.callers.set k c' }
  | readsHead {k : Nat} {ec : Option String} {c c' : Caller} (hc : net.callers[k]? = some c)
      (hmove : c.readHead ec = some c') :
      Step b net (.readHead k ec) { net with callers := net.callers.set k c' }
  | readsBody {k : Nat} {ec : Option String} {c c' : Caller} (hc : net.callers[k]? = some c)
      (hmove : c.readBody ec = some c') :
      Step b net (.readBody k ec) { net with callers := net.callers.set k c' }
  | accepts {k io timeoutMilli : Nat} (hk : k < net.callers.length) (hnot : k ∉ net.accepted)
      (hio : io < net.server.pool.producers.length) :
      Step b net (.accept k io timeoutMilli) { net with
        server := { net.server with
          conns := net.server.conns ++ [⟨(Connection.create timeoutMilli).start, io⟩] }
        accepted := net.accepted ++ [k] }
  | headReads {n k : Nat} {c : Caller} {a : Accepted}
      {bytes : { bytes : List UInt8 // bytes.length = requestHeaderLen }}
      {request : Stream UInt8} (hk : net.accepted[n]? = some k) (hc : net.callers[k]? = some c)
      (ha : net.server.conns[n]? = some a) (hr : a.conn.reading = .head)
      (hopen : a.conn.isOpen = true)
      (hread : c.request.read requestHeaderLen = some (bytes, request)) :
      Step b net (.headRead n) { net with
        server := net.server.setConn n a
          { a.conn with head := ⟨bytes.val, bytes.property⟩, reading := .headDone false }
        callers := net.callers.set k { c with request := request } }
  | bodyReads {n k : Nat} {c : Caller} {a : Accepted}
      {bytes : { bytes : List UInt8 // bytes.length = a.conn.protocolAndBody.length }}
      {request : Stream UInt8} (hk : net.accepted[n]? = some k) (hc : net.callers[k]? = some c)
      (ha : net.server.conns[n]? = some a) (hr : a.conn.reading = .body)
      (hopen : a.conn.isOpen = true)
      (hread : c.request.read a.conn.protocolAndBody.length = some (bytes, request)) :
      Step b net (.bodyRead n) { net with
        server := net.server.setConn n a
          { a.conn with protocolAndBody := bytes.val, reading := .bodyDone false }
        callers := net.callers.set k { c with request := request } }
  | runs {i : Nat} {task : RequestTask ep World} {call : Call World}
      (hrun : net.server.pool.workers[i]? = some (.run task)) (hnew : task.result = none) :
      Step b net (.runHandler i call) { net with
        server := { net.server with
          pool := net.server.pool.setWorker i
            (.run { task with result := some (task.entry.outcome task.body call) })
          executed := net.server.executed ++ [task.conn] }
        runs := net.runs ++ [⟨task.conn, task.entry, task.body, call⟩] }
  | responds {i k : Nat} {remains : Remains responseHeaderLen} {ec : Option (String × Nat)}
      {task : RequestTask ep World} {c : Caller} {a : Accepted} {outcome : Except Exn Str}
      {result : Except String Str}
      (hrun : net.server.pool.workers[i]? = some (.run task))
      (hk : net.accepted[task.conn]? = some k) (hc : net.callers[k]? = some c)
      (ha : net.server.conns[task.conn]? = some a) (hres : task.result = some outcome)
      (hcaught : Caught outcome result) :
      Step b net (.respond i remains ec) { net with
        server := { net.server.setConn task.conn a
            (a.conn.respond result remains (ec.map Prod.fst)) with
          pool := net.server.pool.setWorker i .notify }
        callers := net.callers.set k { c with
          response := c.response.write (responseBytes a.conn task remains ec)
          responseHead := remains } }
  | server {a : EasyRpcServer.Act ep World} {s : Server ep World} (hint : isInternal a = true)
      (heffect : Effect b net.server a s) :
      Step b net (.server a) { net with server := s }

section Steps

variable {b : Bindings ep World} {net net' : Network ep World}

theorem onCaller_some {k : Nat} {f : Caller → Option Caller}
    (hs : net.onCaller k f = some net') : ∃ c c', net.callers[k]? = some c ∧ f c = some c'
      ∧ net' = { net with callers := net.callers.set k c' } := by
  rw [Network.onCaller] at hs
  cases hc : net.callers[k]? with
  | none =>
      rw [hc] at hs
      cases hs
  | some c =>
      rw [hc] at hs
      obtain ⟨c', hc', rfl⟩ := Option.map_eq_some_iff.mp hs
      exact ⟨c, c', rfl, hc', rfl⟩

/-- What a read of the server takes: bytes of its own call, off the front. -/
theorem serverReads_some {n len : Nat}
    {act : { bytes : List UInt8 // bytes.length = len } → EasyRpcServer.Act ep World}
    (hs : net.serverReads b n len act = some net') :
    ∃ k c bytes request s, net.accepted[n]? = some k ∧ net.callers[k]? = some c
      ∧ c.request.read len = some (bytes, request)
      ∧ net.server.step b (act bytes) = some s
      ∧ net' = { net with
          server := s, callers := net.callers.set k { c with request := request } } := by
  unfold Network.serverReads at hs
  split at hs
  · cases hs
  · rename_i k c hcaller
    obtain ⟨hk, hc⟩ := callerOf_some hcaller
    split at hs
    · cases hs
    · rename_i bytes request hread
      obtain ⟨s, hstep, rfl⟩ := Option.map_eq_some_iff.mp hs
      exact ⟨k, c, bytes, request, s, hk, hc, hread, hstep, rfl⟩

/-- **STEP INVERSION**. -/
theorem step_cases {a : Act ep World} (hs : net.step b a = some net') : Step b net a net' := by
  cases a with
  | connect protocol mode body =>
      cases hs
      exact .connects protocol mode body
  | write k remains ec =>
      obtain ⟨c, c', hc, hmove, rfl⟩ := onCaller_some hs
      exact .writes hc hmove
  | readHead k ec =>
      obtain ⟨c, c', hc, hmove, rfl⟩ := onCaller_some hs
      exact .readsHead hc hmove
  | readBody k ec =>
      obtain ⟨c, c', hc, hmove, rfl⟩ := onCaller_some hs
      exact .readsBody hc hmove
  | accept k io timeoutMilli =>
      obtain ⟨⟨hk, hnot⟩, hs⟩ := Option.ite_none_right_eq_some.mp hs
      obtain ⟨s, hstep, rfl⟩ := Option.map_eq_some_iff.mp hs
      cases effect_of_step hstep with
      | accepts hio => exact .accepts hk hnot hio
  | headRead n =>
      obtain ⟨k, c, bytes, request, s, hk, hc, hread, hstep, rfl⟩ := serverReads_some hs
      cases effect_of_step hstep with
      | headReads ha hr hopen => exact .headReads hk hc ha hr hopen hread
  | bodyRead n =>
      replace hs : net.bodyRead b n = some net' := hs
      unfold Network.bodyRead at hs
      split at hs
      · cases hs
      · rename_i a ha
        obtain ⟨k, c, bytes, request, s, hk, hc, hread, hstep, rfl⟩ := serverReads_some hs
        cases effect_of_step hstep with
        | bodyReads ha' hr hopen hlen =>
            cases ha.symm.trans ha'
            exact .bodyReads hk hc ha hr hopen hread
  | runHandler i call =>
      replace hs : net.runHandler b i call = some net' := hs
      unfold Network.runHandler at hs
      split at hs
      · rename_i task hrun
        obtain ⟨s, hstep, rfl⟩ := Option.map_eq_some_iff.mp hs
        cases effect_of_step hstep with
        | runs hrun' hnew =>
            cases hrun.symm.trans hrun'
            exact .runs hrun hnew
      · cases hs
  | respond i remains ec =>
      replace hs : net.respond b i remains ec = some net' := hs
      unfold Network.respond at hs
      split at hs
      · rename_i task hrun
        split at hs
        · rename_i k c a hcaller ha
          obtain ⟨hk, hc⟩ := callerOf_some hcaller
          obtain ⟨s, hstep, rfl⟩ := Option.map_eq_some_iff.mp hs
          cases effect_of_step hstep with
          | ends hrun' hres hcaught ha' =>
              cases hrun.symm.trans hrun'
              cases ha.symm.trans ha'
              exact .responds hrun hk hc ha hres hcaught
        · cases hs
      · cases hs
  | server a =>
      obtain ⟨hint, hs⟩ := Option.ite_none_right_eq_some.mp hs
      obtain ⟨s, hstep, rfl⟩ := Option.map_eq_some_iff.mp hs
      exact .server hint (effect_of_step hstep)

/-- A step of the network is a step of its server, or none. -/
theorem server_step {a : Act ep World} (hs : net.step b a = some net') :
    net'.server = net.server ∨ ∃ act, net.server.step b act = some net'.server := by
  cases a with
  | connect protocol mode body =>
      cases hs
      exact Or.inl rfl
  | write | readHead | readBody =>
      obtain ⟨c, c', -, -, rfl⟩ := onCaller_some hs
      exact Or.inl rfl
  | accept k io timeoutMilli =>
      obtain ⟨-, hs⟩ := Option.ite_none_right_eq_some.mp hs
      obtain ⟨s, hstep, rfl⟩ := Option.map_eq_some_iff.mp hs
      exact Or.inr ⟨_, hstep⟩
  | headRead n =>
      obtain ⟨k, c, bytes, request, s, -, -, -, hstep, rfl⟩ := serverReads_some hs
      exact Or.inr ⟨_, hstep⟩
  | bodyRead n =>
      replace hs : net.bodyRead b n = some net' := hs
      unfold Network.bodyRead at hs
      split at hs
      · cases hs
      · obtain ⟨k, c, bytes, request, s, -, -, -, hstep, rfl⟩ := serverReads_some hs
        exact Or.inr ⟨_, hstep⟩
  | runHandler i call =>
      replace hs : net.runHandler b i call = some net' := hs
      unfold Network.runHandler at hs
      split at hs
      · obtain ⟨s, hstep, rfl⟩ := Option.map_eq_some_iff.mp hs
        exact Or.inr ⟨_, hstep⟩
      · cases hs
  | respond i remains ec =>
      replace hs : net.respond b i remains ec = some net' := hs
      unfold Network.respond at hs
      split at hs
      · split at hs
        · obtain ⟨s, hstep, rfl⟩ := Option.map_eq_some_iff.mp hs
          exact Or.inr ⟨_, hstep⟩
        · cases hs
      · cases hs
  | server a =>
      obtain ⟨-, hs⟩ := Option.ite_none_right_eq_some.mp hs
      obtain ⟨s, hstep, rfl⟩ := Option.map_eq_some_iff.mp hs
      exact Or.inr ⟨_, hstep⟩

end Steps

/-! ## What holds of a call, and of its connection -/

/-- What the call has read of its response. -/
def Received (c : Caller) : Prop :=
  match c.stage with
  | .write => c.response.taken = []
  | .readHead => c.response.taken = []
  | .readBody resHead =>
      ∃ head, c.response.taken = head.bytes ∧ RpcSession.checkHead head = .ok resHead
  | .returned body =>
      ∃ head resHead, c.response.taken = head.bytes ++ body
        ∧ RpcSession.checkHead head = .ok resHead ∧ body.length = resHead.bodyLen.toNat
  | .failed _ => True

/-- A call between two steps: nothing sent at first, afterwards a prefix of its frame, and what it
    has read belongs to what it was sent. -/
structure CallerInv (c : Caller) : Prop where
  unsent : c.stage = .write → c.request.written = [] ∧ c.requestHead = .kept
  sent : c.request.written <+: c.requestFrame
  received : Received c

/-- The lengths fit the header's 32-bit words together. -/
def Fits (c : Caller) : Prop := c.protocol.length + c.body.length < 2 ^ 32

/-- The request went out under a header that says its lengths and its mode, and its lengths fit.
    So it is with the header that the client has filled in, where that is still there. -/
structure Truthful (c : Caller) : Prop where
  fits : Fits c
  head : Says c.wireHead c.protocol c.mode c.body

/-- A header that is still there tells the truth about a call that fits. -/
theorem Truthful.of_kept {c : Caller} (hfits : Fits c) (hkept : c.requestHead = .kept) :
    Truthful c := by
  refine ⟨hfits, ?_⟩
  rw [Caller.wireHead, hkept]
  exact says_kept _ _ _ hfits

/-- The entry and the body are those of the call, whose request has been sent whole and is within
    the limits. -/
structure Asked (b : Bindings ep World) (c : Caller) (entry : Entry ep World) (body : Str) :
    Prop where
  whole : c.request.written = c.requestFrame
  within : 0 < c.protocol.length + c.body.length ∧ c.protocol.length + c.body.length < 8388608
  entry : b.find c.mode c.protocol = some entry
  body : body = c.body

/-- The header was accepted, and the buffer is as long as it says. -/
def Framed (conn : Connection) : Prop :=
  checkHead conn.head = (conn.reqHead, true)
  ∧ conn.protocolAndBody.length = (resizeProtocolAndBody conn.reqHead).length

/-- A task of the call, whose result, if there is one, comes from a run on record. -/
def Belongs (b : Bindings ep World) (c : Caller) (runs : List (Run ep World))
    (task : RequestTask ep World) : Prop :=
  (Truthful c → Asked b c task.entry task.body)
  ∧ ∀ outcome, task.result = some outcome →
      ∃ run ∈ runs, run.conn = task.conn ∧ run.outcome = outcome

/-- **THE LINK** between a call and its connection `n`. -/
structure Link (b : Bindings ep World) (pool : ThreadPool (RequestTask ep World))
    (runs : List (Run ep World)) (n : Nat) (c : Caller) (conn : Connection) : Prop where
  fresh : conn.reading = .head → c.request.taken = []
  headed : conn.reading = .headDone false → c.request.taken = conn.head.bytes
  accepted : conn.reading = .body → c.request.taken = conn.head.bytes ∧ Framed conn
  bodied : conn.reading = .bodyDone false →
    c.request.taken = conn.head.bytes ++ conn.protocolAndBody ∧ Framed conn
  tasks : AllHeld (fun task => task.conn = n → Belongs b c runs task) pool
  asked : ∀ run ∈ runs, run.conn = n → Truthful c → Asked b c run.entry run.body
  response : c.response.written = [] ∨
    held (answering n) pool = 0 ∧ ∃ run ∈ runs, run.conn = n
      ∧ ∃ result, run.outcome = .ok result
        ∧ c.response.written <+: responseFrame result c.responseHead

/-! ## The steps of a call -/

theorem requestFrame_ne_nil (c : Caller) : c.requestFrame ≠ [] := by
  intro h
  have hlen := congrArg List.length (List.append_eq_nil_iff.mp h).1
  rw [c.wireHead.length_eq] at hlen
  exact nomatch hlen

/-- What a step of a call leaves to its connection. -/
structure Keeping (b : Bindings ep World) (c c' : Caller) : Prop where
  request : c'.request.taken = c.request.taken
  response : c'.response.written = c.response.written
  responseHead : c'.responseHead = c.responseHead
  asked : ∀ entry body, (Truthful c → Asked b c entry body) → Truthful c' → Asked b c' entry body

/-- The call has the arguments and the header of another one. -/
structure SameRequest (c c' : Caller) : Prop where
  protocol : c'.protocol = c.protocol
  mode : c'.mode = c.mode
  body : c'.body = c.body
  requestHead : c'.requestHead = c.requestHead

theorem SameRequest.truthful {c c' : Caller} (h : SameRequest c c') (ht : Truthful c') :
    Truthful c := by
  obtain ⟨hfits, hsays⟩ := ht
  rw [Caller.wireHead, h.protocol, h.mode, h.body, h.requestHead] at hsays
  rw [Fits, h.protocol, h.body] at hfits
  exact ⟨hfits, hsays⟩

/-- Of a call, only its request and what was sent of it matter. -/
theorem Asked.same {b : Bindings ep World} {c c' : Caller} {entry : Entry ep World} {body : Str}
    (h : Asked b c entry body) (hsame : SameRequest c c')
    (hwritten : c'.request.written = c.request.written) : Asked b c' entry body := by
  obtain ⟨hp, hm, hb, hhead⟩ := hsame
  refine ⟨?_, ?_, ?_, ?_⟩
  · rw [hwritten, Caller.requestFrame, Caller.wireHead, hp, hm, hb, hhead]
    exact h.whole
  · rw [hp, hb]
    exact h.within
  · rw [hm, hp]
    exact h.entry
  · rw [hb]
    exact h.body

/-- A step that sends nothing. -/
theorem Keeping.of_same {b : Bindings ep World} {c c' : Caller} (hsame : SameRequest c c')
    (hrequest : c'.request = c.request) (hresponse : c'.response.written = c.response.written)
    (hhead : c'.responseHead = c.responseHead) : Keeping b c c' := by
  refine ⟨by rw [hrequest], hresponse, hhead, ?_⟩
  intro entry body hasked htruthful
  exact (hasked (hsame.truthful htruthful)).same hsame (by rw [hrequest])

section CallerSteps

variable {b : Bindings ep World} {c c' : Caller}

/-- The write sends the frame, or a part of it, and nothing had been sent before. -/
theorem write_step (hI : CallerInv c) {remains : Remains requestHeaderLen}
    {ec : Option (String × Nat)} (hs : c.write remains ec = some c') :
    CallerInv c' ∧ Keeping b c c' := by
  let sent : Caller := { c with requestHead := remains }
  -- nothing of the request was on its way, so no task can have asked for it
  have hsends : ∀ (bytes : List UInt8) (stage : Stage), c.stage = .write →
      bytes <+: sent.requestFrame → stage ≠ .write → Received { c with stage := stage } →
      CallerInv { sent with request := c.request.write bytes, stage := stage }
        ∧ Keeping b c { sent with request := c.request.write bytes, stage := stage } := by
    intro bytes stage hstage hbytes hne hreceived
    obtain ⟨hnil, hkept⟩ := hI.unsent hstage
    refine ⟨⟨fun h => absurd h hne, ?_, hreceived⟩, rfl, rfl, rfl, ?_⟩
    · show (c.request.write bytes).written <+: sent.requestFrame
      rw [Stream.written_write, hnil]
      exact hbytes
    · intro entry body hasked htruthful
      have hasked' := hasked (.of_kept htruthful.fits hkept)
      exact absurd (hasked'.whole.symm.trans hnil) (requestFrame_ne_nil c)
  have hreceived : c.stage = .write → c.response.taken = [] := by
    intro hstage
    have h := hI.received
    rwa [Received, hstage] at h
  unfold Caller.write at hs
  split at hs
  · rename_i hstage
    split at hs
    · cases hs
      exact ⟨⟨nofun, hI.sent, trivial⟩, .of_same ⟨rfl, rfl, rfl, rfl⟩ rfl rfl rfl⟩
    · rename_i buffers hwrite
      cases hs
      rw [write_flatten _ _ _ _ hwrite]
      exact hsends _ .readHead hstage List.prefix_rfl nofun (hreceived hstage)
    · rename_i buffers what sent hwrite
      cases hs
      rw [write_flatten _ _ _ _ hwrite]
      exact hsends _ (.failed what) hstage (List.take_prefix _ _) nofun trivial
  · cases hs

/-- The read of the header takes four bytes off the response. -/
theorem readHead_step (hI : CallerInv c) {ec : Option String} (hs : c.readHead ec = some c') :
    CallerInv c' ∧ Keeping b c c' := by
  unfold Caller.readHead at hs
  split at hs
  · cases hs
    exact ⟨⟨nofun, hI.sent, trivial⟩, .of_same ⟨rfl, rfl, rfl, rfl⟩ rfl rfl rfl⟩
  · rename_i hstage
    split at hs
    · cases hs
    · rename_i head response hread
      obtain ⟨htaken, hwritten⟩ := Stream.read_spec hread
      split at hs
      · cases hs
        exact ⟨⟨nofun, hI.sent, trivial⟩, .of_same ⟨rfl, rfl, rfl, rfl⟩ rfl hwritten rfl⟩
      · rename_i resHead hcheck
        cases hs
        refine ⟨⟨nofun, hI.sent, ⟨head.val, head.property⟩, ?_, hcheck⟩,
          .of_same ⟨rfl, rfl, rfl, rfl⟩ rfl hwritten rfl⟩
        have hnil : c.response.taken = [] := by
          have h := hI.received
          rwa [Received, hstage] at h
        show response.taken = head.val
        rw [htaken, hnil, List.nil_append]
  · cases hs

theorem readBody_step (hI : CallerInv c) {ec : Option String} (hs : c.readBody ec = some c') :
    CallerInv c' ∧ Keeping b c c' := by
  unfold Caller.readBody at hs
  split at hs
  · cases hs
    exact ⟨⟨nofun, hI.sent, trivial⟩, .of_same ⟨rfl, rfl, rfl, rfl⟩ rfl rfl rfl⟩
  · rename_i resHead hstage
    split at hs
    · cases hs
    · rename_i body response hread
      obtain ⟨htaken, hwritten⟩ := Stream.read_spec hread
      cases hs
      refine ⟨⟨nofun, hI.sent, ?_⟩, .of_same ⟨rfl, rfl, rfl, rfl⟩ rfl hwritten rfl⟩
      have h := hI.received
      rw [Received, hstage] at h
      obtain ⟨head, hhead, hcheck⟩ := h
      refine ⟨head, resHead, ?_, hcheck, body.property⟩
      show response.taken = head.bytes ++ body.val
      rw [htaken, hhead]
  · cases hs

end CallerSteps

/-! ## The steps of a connection and of the pool -/

/-- No bytes of the request are expected, and none are waiting to be routed. -/
def quiet : Reading → Bool
  | .idle => true
  | .routing => true
  | .headDone ec => ec
  | .bodyDone ec => ec
  | _ => false

section LinkSteps

variable {b : Bindings ep World} {pool pool' : ThreadPool (RequestTask ep World)}
  {runs runs' : List (Run ep World)} {n : Nat} {c c' : Caller} {conn conn' : Connection}

/-- A call that goes on keeps its link with its connection. -/
theorem Link.keeping (h : Link b pool runs n c conn) (hk : Keeping b c c') :
    Link b pool runs n c' conn := by
  refine ⟨?_, ?_, ?_, ?_, ?_, ?_, ?_⟩
  · rw [hk.request]
    exact h.fresh
  · rw [hk.request]
    exact h.headed
  · rw [hk.request]
    exact h.accepted
  · rw [hk.request]
    exact h.bodied
  · exact h.tasks.imp fun task hb hconn => ⟨hk.asked _ _ (hb hconn).1, (hb hconn).2⟩
  · exact fun run hrun hconn => hk.asked _ _ (h.asked run hrun hconn)
  · rw [hk.response, hk.responseHead]
    exact h.response

/-- Steps of the pool that bring in no task of the connection, and runs for other connections. -/
theorem Link.pool_step (h : Link b pool runs n c conn)
    (hheld : ∀ q : RequestTask ep World → Bool,
      (∀ task, q task = true → ofConn n task = true) → held q pool' ≤ held q pool)
    (hold : ∀ run ∈ runs, run ∈ runs') (hnew : ∀ run ∈ runs', run.conn = n → run ∈ runs) :
    Link b pool' runs' n c conn := by
  refine ⟨h.fresh, h.headed, h.accepted, h.bodied, ?_, ?_, ?_⟩
  · intro q hq
    have hconn : ∀ task, q task = true → ofConn n task = true := by
      intro task hqt
      by_contra hne
      exact hq task hqt fun hc => absurd (beq_iff_eq.mpr hc) hne
    have hnone : held q pool = 0 := by
      refine h.tasks q fun task hqt hb => hq task hqt fun hc => ?_
      obtain ⟨hasked, hresult⟩ := hb hc
      refine ⟨hasked, fun outcome hout => ?_⟩
      obtain ⟨run, hmem, hrun⟩ := hresult outcome hout
      exact ⟨run, hold run hmem, hrun⟩
    exact Nat.eq_zero_of_le_zero (hnone ▸ hheld q hconn)
  · exact fun run hrun hconn => h.asked run (hnew run hrun hconn) hconn
  · rcases h.response with hnil | ⟨hnone, run, hmem, hrun⟩
    · exact Or.inl hnil
    · have hle := hheld (answering n) fun _ => ofConn_of_answering
      exact Or.inr ⟨Nat.eq_zero_of_le_zero (hnone ▸ hle), run, hold run hmem, hrun⟩

/-- A connection that has ended its read chain keeps it as well. -/
theorem Link.quiet_step (h : Link b pool runs n c conn) (hq : quiet conn'.reading = true) :
    Link b pool runs n c conn' := by
  refine ⟨?_, ?_, ?_, ?_, h.tasks, h.asked, h.response⟩
  all_goals
    intro hr
    rw [hr] at hq
    cases hq

/-- Steps that leave the request of the connection alone. -/
theorem Link.same_step (h : Link b pool runs n c conn) (hr : conn'.reading = conn.reading)
    (hhead : conn'.head = conn.head) (hreq : conn'.reqHead = conn.reqHead)
    (hbytes : conn'.protocolAndBody = conn.protocolAndBody) : Link b pool runs n c conn' := by
  have hframed : Framed conn → Framed conn' := by
    rw [Framed, Framed, hhead, hreq, hbytes]
    exact id
  refine ⟨?_, ?_, ?_, ?_, h.tasks, h.asked, h.response⟩
  · rw [hr]
    exact h.fresh
  · rw [hr, hhead]
    exact h.headed
  · rw [hr, hhead]
    exact fun hb => ⟨(h.accepted hb).1, hframed (h.accepted hb).2⟩
  · rw [hr, hhead, hbytes]
    exact fun hb => ⟨(h.bodied hb).1, hframed (h.bodied hb).2⟩

/-- The header read has taken the first bytes. -/
theorem Link.head_reads (h : Link b pool runs n c conn) (hr : conn.reading = .head)
    {bytes : { bytes : List UInt8 // bytes.length = requestHeaderLen }} {request : Stream UInt8}
    (hread : c.request.read requestHeaderLen = some (bytes, request)) :
    Link b pool runs n { c with request := request }
      { conn with head := ⟨bytes.val, bytes.property⟩, reading := .headDone false } := by
  obtain ⟨htaken, hwritten⟩ := Stream.read_spec hread
  have hsame : SameRequest c { c with request := request } := ⟨rfl, rfl, rfl, rfl⟩
  refine ⟨nofun, ?_, nofun, nofun, ?_, ?_, h.response⟩
  · intro _
    show request.taken = bytes.val
    rw [htaken, h.fresh hr, List.nil_append]
  · refine h.tasks.imp fun task hb hconn => ⟨fun htruthful => ?_, (hb hconn).2⟩
    exact ((hb hconn).1 (hsame.truthful htruthful)).same hsame hwritten
  · exact fun run hrun hconn htruthful =>
      (h.asked run hrun hconn (hsame.truthful htruthful)).same hsame hwritten

/-- The body read has taken the bytes behind the header. -/
theorem Link.body_reads (h : Link b pool runs n c conn) (hr : conn.reading = .body)
    {bytes : { bytes : List UInt8 // bytes.length = conn.protocolAndBody.length }}
    {request : Stream UInt8}
    (hread : c.request.read conn.protocolAndBody.length = some (bytes, request)) :
    Link b pool runs n { c with request := request }
      { conn with protocolAndBody := bytes.val, reading := .bodyDone false } := by
  obtain ⟨htaken, hwritten⟩ := Stream.read_spec hread
  obtain ⟨hhead, hv, hlen⟩ := h.accepted hr
  have hsame : SameRequest c { c with request := request } := ⟨rfl, rfl, rfl, rfl⟩
  refine ⟨nofun, nofun, nofun, ?_, ?_, ?_, h.response⟩
  · intro _
    refine ⟨?_, hv, bytes.property.trans hlen⟩
    show request.taken = conn.head.bytes ++ bytes.val
    rw [htaken, hhead]
  · refine h.tasks.imp fun task hb hconn => ⟨fun htruthful => ?_, (hb hconn).2⟩
    exact ((hb hconn).1 (hsame.truthful htruthful)).same hsame hwritten
  · exact fun run hrun hconn htruthful =>
      (h.asked run hrun hconn (hsame.truthful htruthful)).same hsame hwritten

/-- An accepted header goes on into the body read. -/
theorem Link.head_accepted (h : Link b pool runs n c conn) (hr : conn.reading = .headDone false)
    {reqHead : RequestHeader} (hv : checkHead conn.head = (reqHead, true)) :
    Link b pool runs n c (conn.setReqHead reqHead).readProtocolAndBody :=
  ⟨nofun, nofun, fun _ => ⟨h.headed hr, hv, rfl⟩, nofun, h.tasks, h.asked, h.response⟩

/-- The header that was read is the one that was sent. -/
theorem head_of_begins {head : CharArray requestHeaderLen} {rest : List UInt8}
    (h : head.bytes ++ rest <+: c.requestFrame) :
    head = c.wireHead ∧ rest <+: c.protocol ++ c.body := by
  obtain ⟨hhead, hrest⟩ := prefix_cut h (head.length_eq.trans c.wireHead.length_eq.symm)
  refine ⟨?_, hrest⟩
  cases hc : head
  cases hs : c.wireHead
  rw [hc, hs] at hhead
  subst hhead
  rfl

/-- The buffer behind a truthful header holds all that was sent behind it. -/
theorem Framed.sent (h : Framed conn) (htruthful : Truthful c) (hhead : conn.head = c.wireHead) :
    conn.reqHead = (checkHead c.wireHead).1
    ∧ conn.protocolAndBody.length = (c.protocol ++ c.body).length := by
  obtain ⟨hv, hlen⟩ := h
  rw [hhead] at hv
  have hreq : conn.reqHead = (checkHead c.wireHead).1 := by rw [hv]
  have hp : (checkHead c.wireHead).1.protocolLen.toNat = c.protocol.length :=
    htruthful.head.protocolLen
  have hb : (checkHead c.wireHead).1.bodyLen.toNat = c.body.length := htruthful.head.bodyLen
  refine ⟨hreq, ?_⟩
  rw [hlen, hreq, length_resizeProtocolAndBody, hp, hb, Nat.mod_eq_of_lt htruthful.fits,
    List.length_append]

/-- A buffer that was filled for a truthful call. -/
theorem Link.bodied_sent (h : Link b pool runs n c conn) (hI : CallerInv c)
    (htruthful : Truthful c) (hr : conn.reading = .bodyDone false) :
    conn.head = c.wireHead
    ∧ conn.reqHead = (checkHead c.wireHead).1
    ∧ conn.protocolAndBody = c.protocol ++ c.body := by
  obtain ⟨htaken, hframed⟩ := h.bodied hr
  obtain ⟨hhead, hrest⟩ := head_of_begins (htaken ▸ c.request.taken_begins.trans hI.sent)
  obtain ⟨hreq, hlen⟩ := hframed.sent htruthful hhead
  exact ⟨hhead, hreq, hrest.eq_of_length hlen⟩

/-- What an accepted request under a truthful header has brought: the call's own protocol, mode
    and body. -/
theorem asked_of_bodied (h : Link b pool runs n c conn) (hI : CallerInv c)
    (htruthful : Truthful c) (hr : conn.reading = .bodyDone false) {protocol body : Str}
    {entry : Entry ep World} (hp : protocolSlice conn.reqHead conn.protocolAndBody = some protocol)
    (hb : bodySlice conn.reqHead conn.protocolAndBody = some body)
    (hf : b.find conn.reqHead.mode protocol = some entry) : Asked b c entry body := by
  obtain ⟨htaken, hv, -⟩ := h.bodied hr
  obtain ⟨hhead, hreq, hbuffer⟩ := h.bodied_sent hI htruthful hr
  have hplen : (checkHead c.wireHead).1.protocolLen.toNat = c.protocol.length :=
    htruthful.head.protocolLen
  have hblen : (checkHead c.wireHead).1.bodyLen.toNat = c.body.length := htruthful.head.bodyLen
  have hmode : (checkHead c.wireHead).1.mode = c.mode := congrArg CallMode.mk htruthful.head.mode
  obtain ⟨hprotocol, hbody⟩ := slices_of_lengths hplen hblen
  rw [hreq, hbuffer] at hp hb
  cases hprotocol.symm.trans hp
  cases hbody.symm.trans hb
  refine ⟨?_, ?_, ?_, rfl⟩
  · refine hI.sent.eq_of_length (Nat.le_antisymm hI.sent.length_le ?_)
    have hle := c.request.taken_begins.length_le
    rw [htaken, hhead, hbuffer] at hle
    exact hle
  · rw [hhead] at hv
    have hrange := (checkHead_iff c.wireHead).mp (congrArg Prod.snd hv)
    rwa [hplen, hblen, Nat.mod_eq_of_lt htruthful.fits] at hrange
  · rw [hreq, hmode] at hf
    exact hf

/-- The request is handed over to a task. -/
theorem Link.routes (h : Link b pool runs n c conn) (hI : CallerInv c)
    (hr : conn.reading = .bodyDone false) {protocol body : Str} {entry : Entry ep World}
    (hp : protocolSlice conn.reqHead conn.protocolAndBody = some protocol)
    (hb : bodySlice conn.reqHead conn.protocolAndBody = some body)
    (hf : b.find conn.reqHead.mode protocol = some entry)
    (hheld : ∀ q, held q pool' ≤ held q pool + weight (q ⟨entry, body, n, none⟩))
    (hq : quiet conn'.reading = true) : Link b pool' runs n c conn' := by
  have hbelongs : Belongs b c runs ⟨entry, body, n, none⟩ :=
    ⟨fun htruthful => asked_of_bodied h hI htruthful hr hp hb hf, nofun⟩
  have hmore : Link b pool' runs n c conn := by
    refine ⟨h.fresh, h.headed, h.accepted, h.bodied, ?_, h.asked, ?_⟩
    · exact h.tasks.brings (fun _ => hbelongs) hheld
    · rcases h.response with hnil | ⟨hnone, hrun⟩
      · exact Or.inl hnil
      · have hle := hheld (answering n)
        rw [hnone, show answering n ⟨entry, body, n, none⟩ = false from Bool.and_false _] at hle
        exact Or.inr ⟨Nat.eq_zero_of_le_zero hle, hrun⟩
  exact hmore.quiet_step hq

section TaskSteps

variable {i : Nat} {task : RequestTask ep World}

/-- The handler runs, and the run is recorded. -/
theorem Link.handler_runs (h : Link b pool runs n c conn)
    (hrun : pool.workers[i]? = some (.run task)) (hconn : task.conn = n)
    (hfirst : ∀ run ∈ runs, run.conn ≠ n) (call : Call World) :
    Link b (pool.setWorker i
        (.run { task with result := some (task.entry.outcome task.body call) }))
      (runs ++ [⟨task.conn, task.entry, task.body, call⟩]) n c conn := by
  have hbelongs := h.tasks.run hrun hconn
  refine ⟨h.fresh, h.headed, h.accepted, h.bodied, ?_, ?_, ?_⟩
  · have hold : AllHeld (fun task' => task'.conn = n →
        Belongs b c (runs ++ [⟨task.conn, task.entry, task.body, call⟩]) task') pool := by
      refine h.tasks.imp fun task' hb hconn' => ⟨(hb hconn').1, fun outcome hout => ?_⟩
      obtain ⟨run, hmem, hrun⟩ := (hb hconn').2 outcome hout
      exact ⟨run, List.mem_append_left _ hmem, hrun⟩
    have hran : RequestTask.conn { task with
        result := some (task.entry.outcome task.body call) } = n →
        Belongs b c (runs ++ [⟨task.conn, task.entry, task.body, call⟩])
          { task with result := some (task.entry.outcome task.body call) } := by
      intro _
      refine ⟨hbelongs.1, ?_⟩
      rintro outcome ⟨⟩
      exact ⟨_, List.mem_append_right _ List.mem_cons_self, rfl, rfl⟩
    refine hold.brings hran ?_
    exact fun q => Nat.le_of_add_right_le (Nat.le_of_eq (held_setWorker q hrun (.run _)))
  · intro run hmem hc
    rcases List.mem_append.mp hmem with hmem | hmem
    · exact h.asked run hmem hc
    · rw [List.mem_singleton] at hmem
      subst hmem
      exact hbelongs.1
  · rcases h.response with hnil | ⟨-, run, hmem, hc, -⟩
    · exact Or.inl hnil
    · exact absurd hc (hfirst run hmem)

/-- A response is the frame of the task's result, or the beginning of it. -/
theorem responseBytes_begins (conn : Connection) (task : RequestTask ep World)
    (remains : Remains responseHeaderLen) (ec : Option (String × Nat)) :
    responseBytes conn task remains ec = []
    ∨ ∃ result, task.result = some (.ok result)
      ∧ responseBytes conn task remains ec <+: responseFrame result remains := by
  unfold responseBytes
  split
  · rename_i result hres
    split
    · exact Or.inl rfl
    · exact Or.inr ⟨result, hres, List.prefix_rfl⟩
    · exact Or.inr ⟨result, hres, List.take_prefix _ _⟩
  · exact Or.inl rfl

/-- Nothing has been sent while a task of the connection is to answer. -/
theorem Link.unanswered (h : Link b pool runs n c conn) (hrun : pool.workers[i]? = some (.run task))
    (hconn : task.conn = n) (hdone : task.result.isSome = true) : c.response.written = [] := by
  have hans : answering n task = true := by
    rw [answering, beq_iff_eq.mpr hconn, hdone]
    rfl
  rcases h.response with hnil | ⟨hnone, -⟩
  · exact hnil
  · exact absurd hnone (Nat.ne_of_gt (held_pos hrun hans))

/-- The task ends: what it has sent is all that is ever sent on its connection. -/
theorem Link.ends (h : Link b pool runs n c conn) (hrun : pool.workers[i]? = some (.run task))
    (hconn : task.conn = n) (hdone : task.result.isSome = true)
    (honly : held (answering n) pool ≤ 1) (result : Except String Str)
    (remains : Remains responseHeaderLen) (ec : Option (String × Nat)) :
    Link b (pool.setWorker i .notify) runs n
      { c with
        response := c.response.write (responseBytes conn task remains ec)
        responseHead := remains }
      (conn.respond result remains (ec.map Prod.fst)) := by
  have hans : answering n task = true := by
    rw [answering, beq_iff_eq.mpr hconn, hdone]
    rfl
  have hmove : ∀ q, held q (pool.setWorker i .notify) + weight (q task) = held q pool :=
    fun q => held_setWorker q hrun .notify
  obtain ⟨hr, hhead, hreq, hbytes⟩ := respond_request conn result remains (ec.map Prod.fst)
  have hnil := h.unanswered hrun hconn hdone
  have hgone : held (answering n) (pool.setWorker i .notify) = 0 := by
    have hm := hmove (answering n)
    rw [hans] at hm
    simp only [weight, if_true] at hm
    omega
  have hbelongs := h.tasks.run hrun hconn
  have hrest : Link b (pool.setWorker i .notify) runs n c conn :=
    h.pool_step (fun q _ => Nat.le_of_add_right_le (Nat.le_of_eq (hmove q)))
      (fun _ hmem => hmem) (fun _ hmem _ => hmem)
  have hlink := hrest.same_step hr hhead hreq hbytes
  have hsame : SameRequest c { c with
      response := c.response.write (responseBytes conn task remains ec)
      responseHead := remains } := ⟨rfl, rfl, rfl, rfl⟩
  refine ⟨hlink.fresh, hlink.headed, hlink.accepted, hlink.bodied, ?_, ?_, ?_⟩
  · refine hlink.tasks.imp fun task' hb hc => ⟨fun htruthful => ?_, (hb hc).2⟩
    exact ((hb hc).1 (hsame.truthful htruthful)).same hsame rfl
  · exact fun run hmem hc htruthful =>
      (h.asked run hmem hc (hsame.truthful htruthful)).same hsame rfl
  · rcases responseBytes_begins conn task remains ec with hempty | ⟨out, hout, hbegins⟩
    · refine Or.inl ?_
      rw [hempty, Stream.written_write, hnil]
      rfl
    · obtain ⟨run, hmem, hc, houtcome⟩ := hbelongs.2 _ hout
      refine Or.inr ⟨hgone, run, hmem, hc.trans hconn, out, houtcome, ?_⟩
      rw [Stream.written_write, hnil]
      exact hbegins

end TaskSteps

end LinkSteps

end EasyRpcRemoteCall
