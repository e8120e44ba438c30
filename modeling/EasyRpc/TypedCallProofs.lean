import EasyRpc.ArgumentDispatchProofs
import EasyRpc.RemoteAnswerProofs
import EasyRpc.SharedClientProofs

/-! # Typed calls — a function called from afar

    `client::call` packs its arguments with the packer that the server unpacks with, hands the
    text to `session_.call`, and unpacks what comes back; `call_raw` hands over strings as they
    are.  Through every layer between the two ends a call that returns gives its caller what the
    function itself has given for these arguments (`typed_call_transparent`,
    `raw_call_transparent`).

    Not so what it throws: a `std::exception` on the server never reaches the caller, who is handed
    the empty string in its place.  A void call then returns as if nothing had happened. -/

namespace EasyRpcTypedCall

open Transition Throwing EasyRpcWire EasyRpcConnection EasyRpcDispatch EasyRpcArgumentDispatch
open EasyRpcServer EasyRpcRemoteCall

variable {ep : Easypack} {traits : FunctionTraits ep} {World : Type}

/-! ## The client's end -/

/-- `up.unpack_args(ret)`, the one use of the library that the server has not. -/
structure Unpacker (ep : Easypack) where
  unpackArgs : (t : ep.Ty) → ep.Unpack → Except Exn (ep.Val t)

/-- A value of `return_type`, which is `none` for void. -/
def ReturnVal (ep : Easypack) : Option ep.Ty → Type
  | none => Unit
  | some t => ep.Val t

/-- `protocol_define<Return(Args...)>`. -/
structure ProtocolDefine (ep : Easypack) where
  traits : FunctionTraits ep
  returnType : Option ep.Ty
  name : Str

/-- The arguments in order, with their types. -/
def values (args : Args traits) : List ((t : ep.Ty) × ep.Val t) := List.ofFn (argAt args)

/-- `session_.call`, to its return or its exception. -/
abbrev SessionCall := Str → CallMode → Str → Except Exn (List UInt8)

namespace ProtocolDefine

/-- `protocol_define::pack`: the arguments, one after the other. -/
def pack (protocol : ProtocolDefine ep) (args : Args protocol.traits) : Except Exn Str :=
  ep.packArgs (values args)

/-- The unpacking of a result. -/
def unpack (up : Unpacker ep) (t : ep.Ty) (text : Str) : Except Exn (ep.Val t) := do
  let parser ← ep.unpack text
  up.unpackArgs t parser

/-- What either overload of `client::call` makes of the bytes that come back. -/
def result (up : Unpacker ep) : (ret : Option ep.Ty) → List UInt8 → Except Exn (ReturnVal ep ret)
  | none, _ => .ok ()
  | some t, bytes => unpack up t bytes

/-- `client::call`, between connect and disconnect. -/
def call (up : Unpacker ep) (session : SessionCall) (protocol : ProtocolDefine ep)
    (args : Args protocol.traits) : Except Exn (ReturnVal ep protocol.returnType) := do
  let body ← protocol.pack args
  let ret ← session protocol.name .nonRaw body
  result up protocol.returnType ret

end ProtocolDefine

/-- `client::call_raw<two_way>`. -/
def callRawTwoWay (session : SessionCall) (protocol body : Str) : Except Exn Str := do
  let ret ← session protocol .raw body
  .ok ret

/-- The call of the network that `client::call` makes. -/
structure Calls (protocol : ProtocolDefine ep) (args : Args protocol.traits) (c : Caller) :
    Prop where
  name : c.protocol = protocol.name
  mode : c.mode = .nonRaw
  body : protocol.pack args = .ok c.body

/-- A typed call is its raw call between packing and unpacking. -/
theorem Calls.call {protocol : ProtocolDefine ep} {args : Args protocol.traits} {c : Caller}
    (h : Calls protocol args c) (up : Unpacker ep) (ret : List UInt8) :
    protocol.call up (fun _ _ _ => .ok ret) args
      = ProtocolDefine.result up protocol.returnType ret := by
  unfold ProtocolDefine.call
  rw [h.body]
  rfl

/-! ## The function itself -/

/-- The type a function returns, if it returns anything. -/
def returnOf : Function traits World → Option ep.Ty
  | .void _ => none
  | .value t _ => some t

/-- The function, called where it is. -/
def invoke (func : Function traits World) (args : Args traits) :
    Comp World (ReturnVal ep (returnOf func)) :=
  match func with
  | .void func => func args
  | .value _ func => func args

/-- The protocol with the signature of the function. -/
def protocolOf (func : Function traits World) (name : Str) : ProtocolDefine ep :=
  ⟨traits, returnOf func, name⟩

/-- `result = pack()` and `result = pack(ret)`. -/
def packReturn : (ret : Option ep.Ty) → ReturnVal ep ret → Except Exn Str
  | none, _ => ep.packArgs []
  | some t, value => ep.packArgs [⟨t, value⟩]

/-- The answer of a typed function is its value, packed. -/
theorem answer_eq (func : Function traits World) (args : Args traits) :
    func.answer args
      = invoke func args >>= fun ret => fromExcept (packReturn (returnOf func) ret) := by
  cases func with
  | void func => rfl
  | value t func => rfl

/-- What the entry makes of an answer: a `std::exception` leaves the empty result. -/
def caught : Except Exn Str → Except Exn Str
  | .ok result => .ok result
  | .error (.std _) => .ok []
  | .error .other => .error .other

/-- What the caller gets for what the function has done: its return value, the empty string in
    place of a `std::exception`, and no return after any other exception. -/
def remoteResult (up : Unpacker ep) (ret : Option ep.Ty) :
    Except Exn (ReturnVal ep ret) → Option (Except Exn (ReturnVal ep ret))
  | .ok value =>
      match packReturn ret value with
      | .ok _ => some (.ok value)
      | .error (.std _) => some (ProtocolDefine.result up ret [])
      | .error .other => none
  | .error (.std _) => some (ProtocolDefine.result up ret [])
  | .error .other => none

/-! ## What is packed is unpacked -/

/-- Successive `unpack_top` calls, each for the type of the next value, yield the values. -/
def Unpacks (ep : Easypack) : ep.Unpack → List ((t : ep.Ty) × ep.Val t) → Prop
  | _, [] => True
  | parser, v :: vs =>
      ∃ parser', ep.unpackTop v.1 parser = .ok (v.2, parser') ∧ Unpacks ep parser' vs

/-- The two ends of the library agree: what `pack_args` has packed is unpacked value by value,
    and a single value in one call. -/
structure Agrees (up : Unpacker ep) : Prop where
  unpacks : ∀ vs text, ep.packArgs vs = .ok text →
    ∃ parser, ep.unpack text = .ok parser ∧ Unpacks ep parser vs
  single : ∀ t value text, ep.packArgs [⟨t, value⟩] = .ok text →
    ∃ parser, ep.unpack text = .ok parser ∧ up.unpackArgs t parser = .ok value

/-- The first arguments of all. -/
def firstArgs (args : Args traits) (n : Nat) (h : n ≤ traits.arity) : Tuple traits n h :=
  fun i => args (i.castLE h)

theorem tupleCat_firstArgs (args : Args traits) {n : Nat} (h : n + 1 ≤ traits.arity) :
    tupleCat (h := h) (firstArgs args n (Nat.le_of_succ_le h)) (args ⟨n, h⟩)
      = firstArgs args (n + 1) h := by
  funext i
  cases i using Fin.lastCases with
  | last => exact tupleCat_last _ _
  | cast i => exact tupleCat_castSucc _ _ i

/-- The recursion of `invoker` unpacks the arguments that were packed. -/
theorem unpackArgs_of_unpacks (args : Args traits) (rest : Nat) :
    ∀ (I : Nat) (h : I + rest = traits.arity) (parser : ep.Unpack),
      Unpacks ep parser ((values args).drop I) →
      unpackArgs rest I h (firstArgs args I (h ▸ Nat.le_add_right I rest)) parser = .ok args := by
  induction rest with
  | zero => exact fun I h parser _ => rfl
  | succ rest ih =>
      intro I h parser hparser
      have hI : I < traits.arity := by omega
      have hlt : I < (values args).length := by
        rw [values, List.length_ofFn]
        exact hI
      have hfirst : (values args)[I] = argAt args ⟨I, hI⟩ := List.getElem_ofFn _
      rw [List.drop_eq_getElem_cons hlt, hfirst] at hparser
      obtain ⟨parser', htop, hnext⟩ := hparser
      replace htop : ep.unpackTop (traits.args ⟨I, hI⟩) parser = .ok (args ⟨I, hI⟩, parser') := htop
      rw [← ih (I + 1) (by omega) parser' hnext, unpackArgs, htop, ← tupleCat_firstArgs args hI]
      rfl

section Ends

variable {up : Unpacker ep}

/-- The server calls the function with the arguments of the caller. -/
theorem Agrees.request (hagrees : Agrees up) (func : Function traits World) {args : Args traits}
    {body : Str} (hpack : ep.packArgs (values args) = .ok body) :
    ∃ parser, ep.unpack body = .ok parser ∧ func.request parser = func.answer args := by
  obtain ⟨parser, hparser, hunpacks⟩ := hagrees.unpacks _ _ hpack
  refine ⟨parser, hparser, ?_⟩
  have hargs := unpackArgs_of_unpacks args traits.arity 0 (Nat.zero_add _) parser hunpacks
  have hempty : firstArgs args 0 (Nat.zero_le _) = emptyTuple := funext fun i => i.elim0
  rw [hempty] at hargs
  rw [Function.request, hargs, fromExcept_ok_bind]

/-- What a swallowed answer leaves of an empty result. -/
theorem swallow_caught (answer : Comp World Str) (c : Call World) :
    (match (swallow answer).exec { c with result := [] } with
      | (.ok (), c') => .ok c'.result
      | (.error e, _) => .error e) = caught (answer.exec c.world).1 := by
  rcases h : answer.exec c.world with ⟨e | result, w⟩
  · cases e with
    | std what => rw [exec_swallow_std (c := { c with result := [] }) h]; rfl
    | other => rw [exec_swallow_other (c := { c with result := [] }) h]; rfl
  · rw [exec_swallow_ok (c := { c with result := [] }) h]
    rfl

/-- What a bound function leaves for a body that packs its arguments. -/
theorem Agrees.outcome (hagrees : Agrees up) (func : Function traits World) {args : Args traits}
    {body : Str} (hpack : ep.packArgs (values args) = .ok body) (c : Call World) :
    (Handler.nonMember func).entry.outcome body c
      = caught ((func.answer args).exec c.world).1 := by
  obtain ⟨parser, hparser, hrequest⟩ := hagrees.request func hpack
  rw [Entry.outcome, exec_run_nonMember hparser, hrequest]
  exact swallow_caught _ c

/-- What a raw handler comes to is its function's answer. -/
theorem outcome_raw (func : FunctionRaw World) (body : Str) (c : Call World) :
    (Handler.nonMemberRaw func : Handler ep World).entry.outcome body c
      = caught ((func.answer body).exec c.world).1 := by
  have hreset : (setResult []).exec c = (.ok (), { c with result := [] }) := rfl
  have hrun : ((Handler.nonMemberRaw func : Handler ep World).entry.run body).exec c
      = (swallow (func.answer body)).exec { c with result := [] } := by
    rw [← InvokerRaw.apply_eq]
    exact exec_bind_ok hreset
  rw [Entry.outcome, hrun]
  exact swallow_caught _ c

/-- The client unpacks what the server has packed. -/
theorem Agrees.result (hagrees : Agrees up) {ret : Option ep.Ty} {value : ReturnVal ep ret}
    {text : Str} (hpack : packReturn ret value = .ok text) :
    ProtocolDefine.result up ret text = .ok value := by
  cases ret with
  | none => rfl
  | some t =>
      obtain ⟨parser, hparser, hvalue⟩ := hagrees.single t value text hpack
      rw [ProtocolDefine.result, ProtocolDefine.unpack, hparser]
      exact hvalue

/-- **BOTH ENDS**: what the client makes of the bytes that the answer leaves is what the caller
    should get for what the function has done. -/
theorem Agrees.remote (hagrees : Agrees up) (func : Function traits World)
    (args : Args traits) (w : World) {bytes : Str}
    (hbytes : caught ((func.answer args).exec w).1 = .ok bytes) :
    remoteResult up (returnOf func) ((invoke func args).exec w).1
      = some (ProtocolDefine.result up (returnOf func) bytes) := by
  rw [answer_eq, exec_bind] at hbytes
  rcases hexec : (invoke func args).exec w with ⟨e | value, w'⟩
  · rw [hexec] at hbytes
    cases e with
    | std what =>
        cases hbytes
        rfl
    | other => cases hbytes
  · rw [hexec] at hbytes
    replace hbytes : caught (packReturn (returnOf func) value) = .ok bytes := hbytes
    rw [remoteResult]
    cases hpack : packReturn (returnOf func) value with
    | ok text =>
        rw [hpack] at hbytes
        cases hbytes
        rw [hagrees.result hpack]
    | error e =>
        rw [hpack] at hbytes
        cases e with
        | std what =>
            cases hbytes
            rfl
        | other => cases hbytes

end Ends

/-! ## Through the network -/

section Network

variable {b : Bindings ep World} {net : Network ep World} {k : Nat} {c : Caller}

/-- Every run for the call is a run of the entry it asks for, on its body. -/
theorem runsOf_outcome (hI : NetInv b net) (hserver : ServerInv b net.server)
    (hc : net.callers[k]? = some c) (htruthful : Truthful c) {entry : Entry ep World}
    (hbound : b.find c.mode c.protocol = some entry) {run : Run ep World}
    (hmem : run ∈ net.runsOf k) : run.outcome = entry.outcome c.body run.call := by
  obtain ⟨hrun, hk⟩ := mem_runsOf.mp hmem
  obtain ⟨k', c', hk', hc', hasked⟩ := hI.run_asked hserver hrun
  cases Option.some.inj (hk.symm.trans hk')
  cases Option.some.inj (hc.symm.trans hc')
  have hserve := hasked htruthful
  cases Option.some.inj (hbound.symm.trans hserve.entry)
  rw [Run.outcome, hserve.body]

/-- What a call has returned is the result of its one run, if that fits its header word and the
    header has lasted. -/
theorem returned_outcome (hI : NetInv b net) (hserver : ServerInv b net.server)
    (hc : net.callers[k]? = some c) (htruthful : Truthful c) {entry : Entry ep World}
    (hbound : b.find c.mode c.protocol = some entry) (hresponse : c.responseHead = .kept)
    (hsmall : ∀ run ∈ net.runsOf k, ∀ result, run.outcome = .ok result → result.length < 2 ^ 32)
    {ret : List UInt8} (hret : c.stage = .returned ret) :
    ∃ run, net.runsOf k = [run] ∧ entry.outcome c.body run.call = .ok ret := by
  obtain ⟨run, result, hruns, houtcome, hover, -⟩ := hI.returned hserver hc hret
  have hmem : run ∈ net.runsOf k := hruns ▸ List.mem_cons_self
  rw [hresponse] at hover
  obtain rfl := handedOver_of_lt (hsmall run hmem result houtcome) hover
  refine ⟨run, hruns, ?_⟩
  rw [← runsOf_outcome hI hserver hc htruthful hbound hmem]
  exact houtcome

/-- Both ends of a call and the network between them. -/
theorem Agrees.transparent {up : Unpacker ep} (hagrees : Agrees up) (hI : NetInv b net)
    (hserver : ServerInv b net.server) (hc : net.callers[k]? = some c)
    (htruthful : Truthful c) (func : Function traits World) (name : Str) (args : Args traits)
    (hcalls : Calls (protocolOf func name) args c)
    (hbound : b.find .nonRaw name = some (Handler.nonMember func).entry)
    (hsmall : ∀ run ∈ net.runsOf k, ∀ result, run.outcome = .ok result →
      result.length < 2 ^ 32) :
    (net.runsOf k).length ≤ 1
    ∧ (∀ run ∈ net.runsOf k, run.outcome = caught ((func.answer args).exec run.call.world).1)
    ∧ (c.responseHead = .kept → ∀ ret, c.stage = .returned ret → ∃ run, net.runsOf k = [run]
        ∧ remoteResult up (returnOf func) ((invoke func args).exec run.call.world).1
          = some ((protocolOf func name).call up (fun _ _ _ => .ok ret) args)) := by
  have hfind : b.find c.mode c.protocol = some (Handler.nonMember func).entry := by
    rw [hcalls.mode, hcalls.name]
    exact hbound
  refine ⟨hI.length_runsOf hserver k, ?_, ?_⟩
  · intro run hmem
    rw [runsOf_outcome hI hserver hc htruthful hfind hmem]
    exact hagrees.outcome func hcalls.body run.call
  · intro hresponse ret hret
    obtain ⟨run, hruns, houtcome⟩ :=
      returned_outcome hI hserver hc htruthful hfind hresponse hsmall hret
    refine ⟨run, hruns, ?_⟩
    rw [hagrees.outcome func hcalls.body] at houtcome
    rw [hcalls.call up ret]
    exact hagrees.remote func args run.call.world houtcome

/-- **A TYPED CALL IS A CALL OF THE FUNCTION**: one whose request fits its header, and goes out
    under it, runs the bound function on the arguments of the caller, once at most; and once
    `session_.call` has returned under the header of the response, the function has run exactly
    once, and `client::call` ends with what the caller should get for what it has done.  A member
    function is bound as the function of its object. -/
theorem typed_call_transparent {up : Unpacker ep} (hagrees : Agrees up)
    (h : Reachable (remoteSystem b) net) (hc : net.callers[k]? = some c) (hfits : Fits c)
    (hrequest : c.requestHead = .kept) (func : Function traits World) (name : Str)
    (args : Args traits)
    (hcalls : Calls (protocolOf func name) args c)
    (hbound : b.find .nonRaw name = some (Handler.nonMember func).entry)
    (hsmall : ∀ run ∈ net.runsOf k, ∀ result, run.outcome = .ok result →
      result.length < 2 ^ 32) :
    (net.runsOf k).length ≤ 1
    ∧ (∀ run ∈ net.runsOf k, run.outcome = caught ((func.answer args).exec run.call.world).1)
    ∧ (c.responseHead = .kept → ∀ ret, c.stage = .returned ret → ∃ run, net.runsOf k = [run]
        ∧ remoteResult up (returnOf func) ((invoke func args).exec run.call.world).1
          = some ((protocolOf func name).call up (fun _ _ _ => .ok ret) args)) := by
  exact hagrees.transparent (netInv_of_reaches h) (serverInv_of_reachable (server_of_reaches h))
    hc (.of_kept hfits hrequest) func name args hcalls hbound hsmall

/-- **A RAW CALL IS A CALL OF THE FUNCTION** on the string of the caller, under the same terms. -/
theorem raw_call_transparent (h : Reachable (remoteSystem b) net)
    (hc : net.callers[k]? = some c) (hfits : Fits c) (hrequest : c.requestHead = .kept)
    (func : FunctionRaw World) (hmode : c.mode = .raw)
    (hbound : b.find .raw c.protocol = some (Handler.nonMemberRaw func : Handler ep World).entry)
    (hsmall : ∀ run ∈ net.runsOf k, ∀ result, run.outcome = .ok result →
      result.length < 2 ^ 32) :
    (net.runsOf k).length ≤ 1
    ∧ (∀ run ∈ net.runsOf k,
        run.outcome = caught ((func.answer c.body).exec run.call.world).1)
    ∧ (c.responseHead = .kept → ∀ ret, c.stage = .returned ret → ∃ run, net.runsOf k = [run]
        ∧ caught ((func.answer c.body).exec run.call.world).1
          = callRawTwoWay (fun _ _ _ => .ok ret) c.protocol c.body) := by
  have hI := netInv_of_reaches h
  have hserver := serverInv_of_reachable (server_of_reaches h)
  have htruthful : Truthful c := .of_kept hfits hrequest
  have hfind : b.find c.mode c.protocol
      = some (Handler.nonMemberRaw func : Handler ep World).entry := by
    rw [hmode]
    exact hbound
  refine ⟨hI.length_runsOf hserver k, ?_, ?_⟩
  · intro run hmem
    rw [runsOf_outcome hI hserver hc htruthful hfind hmem]
    exact outcome_raw func c.body run.call
  · intro hresponse ret hret
    obtain ⟨run, hruns, houtcome⟩ :=
      returned_outcome hI hserver hc htruthful hfind hresponse hsmall hret
    rw [outcome_raw] at houtcome
    exact ⟨run, hruns, houtcome⟩

end Network

/-- The client's end of the serialisation of single bytes. -/
def byteUnpacker : Unpacker bytePack where
  unpackArgs _
    | [] => .error (.std "insufficient bytes!")
    | byte :: _ => .ok byte

theorem byteUnpacker_agrees : Agrees byteUnpacker where
  unpacks := by
    rintro vs _ ⟨⟩
    refine ⟨_, rfl, ?_⟩
    induction vs with
    | nil => trivial
    | cons v vs ih => exact ⟨_, rfl, ih⟩
  single := by
    rintro t value _ ⟨⟩
    exact ⟨_, rfl, rfl⟩

/-- The echo is called with 7, and 7 is what `client::call` returns. -/
theorem typed_call_transparent_echo : ∃ net : Network bytePack Unit,
    ∃ run, net.runsOf 0 = [run]
      ∧ remoteResult byteUnpacker (returnOf echoFunction)
          ((invoke echoFunction fun _ => (7 : UInt8)).exec run.call.world).1
        = some (.ok (7 : UInt8)) := by
  have hstart : (remoteSystem echoBindings).start ⟨⟨.initial 1 1, [], []⟩, [], [], []⟩ :=
    ⟨_, ⟨1, 1, rfl⟩, rfl⟩
  have hexec : exec (remoteSystem echoBindings) ⟨⟨.initial 1 1, [], []⟩, [], [], []⟩ oneCall
      = some _ := rfl
  have hreach := (Reachable.start hstart).exec hexec
  have hfits : 1 + 1 < 2 ^ 32 := by decide
  have hcall := typed_call_transparent byteUnpacker_agrees hreach (k := 0) rfl hfits rfl
    echoFunction [101] (fun _ => (7 : UInt8)) ⟨rfl, rfl, rfl⟩ rfl ?_
  · exact ⟨_, hcall.2.2 rfl [7] rfl⟩
  · intro run hmem result hresult
    cases List.mem_singleton.mp hmem
    cases hresult
    decide

/-- A raw echo, bound under the name of the other. -/
def rawEcho : FunctionRaw Unit := .value fun body => pure body

/-- A raw echo, bound to the name `e`. -/
def rawEchoBindings : Bindings bytePack Unit where
  invokerMap _ := none
  invokerRawMap protocol := if protocol = [101] then some (bindNonMemberFuncRaw rawEcho) else none

/-- The raw echo is called with two bytes, and they are what `call_raw` returns. -/
theorem raw_call_transparent_echo : ∃ net : Network bytePack Unit, ∃ run,
    net.runsOf 0 = [run]
    ∧ caught ((rawEcho.answer [7, 9]).exec run.call.world).1 = .ok [7, 9] := by
  have hstart : (remoteSystem rawEchoBindings).start ⟨⟨.initial 1 1, [], []⟩, [], [], []⟩ :=
    ⟨_, ⟨1, 1, rfl⟩, rfl⟩
  have hexec : exec (remoteSystem rawEchoBindings) ⟨⟨.initial 1 1, [], []⟩, [], [], []⟩
      (.connect [101] .raw [7, 9] :: oneCall.tail) = some _ := rfl
  have hreach := (Reachable.start hstart).exec hexec
  have hfits : 1 + 2 < 2 ^ 32 := by decide
  have hcall := raw_call_transparent hreach (k := 0) rfl hfits rfl rawEcho rfl rfl ?_
  · exact ⟨_, hcall.2.2 rfl [7, 9] rfl⟩
  · intro run hmem result hresult
    cases List.mem_singleton.mp hmem
    cases hresult
    decide

end EasyRpcTypedCall

/-! ## Threads that share a client

    A thread packs its arguments, waits its turn, and makes of the bytes that it is handed what it
    unpacks from them.  With the answers of a shared client its own, and the two ends of the
    library agreed, each thread is in the place of one that calls the function
    (`shared_calls_are_calls`), whatever the other threads call at the same time. -/

namespace EasyRpcSharedTypedCall

open Transition Throwing EasyRpcWire EasyRpcDispatch EasyRpcArgumentDispatch EasyRpcServer
open EasyRpcRemoteCall EasyRpcTypedCall EasyRpcSharedClient

variable {ep : Easypack} {traits : FunctionTraits ep} {World : Type} {b : Bindings ep World}
  {s : SharedClient ep World}

/-- `session_.call`, as it ended. -/
def sessionCall (outcome : Except String (List UInt8)) : SessionCall :=
  fun _ _ _ => outcome.mapError .std

/-- What `client::call` ends with. -/
def clientCall (up : Unpacker ep) (func : Function traits World) (name : Str) (args : Args traits)
    (outcome : Except String (List UInt8)) : Except Exn (ReturnVal ep (returnOf func)) :=
  (protocolOf func name).call up (sessionCall outcome) args

/-- The call of the network behind a call that ended. -/
theorem calls_of_finished (hI : SharedInv s) {func : Function traits World} {name body : Str}
    {args : Args traits} (hpack : (protocolOf func name).pack args = .ok body) {k : Nat}
    {outcome : Except String (List UInt8)}
    (hmem : .called ⟨name, .nonRaw, body⟩ k outcome ∈ s.finished) :
    ∃ c, s.net.callers[k]? = some c ∧ Calls (protocolOf func name) args c ∧ c.body = body
      ∧ c.stage = endStage outcome := by
  obtain ⟨c, hc, hprotocol, hmode, hbody, hstage⟩ := hI.finished _ k outcome hmem
  exact ⟨c, hc, ⟨hprotocol, hmode, hbody ▸ hpack⟩, hbody, hstage⟩

/-- **SHARED CALLS ARE CALLS**: of the threads that share a client each one's call, whose request
    fits its header and goes out under it, runs the function at most once, and on its own
    arguments; a call that was handed bytes under the header of its response ran it once, and ends
    with what the caller should get for what it did; one that failed throws what `session_.call`
    has thrown. -/
theorem shared_calls_are_calls {up : Unpacker ep} (hagrees : Agrees up)
    (h : Reachable (sharedSystem b) s) (func : Function traits World) {name body : Str}
    (hbound : b.find .nonRaw name = some (Handler.nonMember func).entry) {args : Args traits}
    (hpack : (protocolOf func name).pack args = .ok body)
    (hfits : name.length + body.length < 2 ^ 32) {k : Nat}
    {outcome : Except String (List UInt8)}
    (hmem : .called ⟨name, .nonRaw, body⟩ k outcome ∈ s.finished) {c : Caller}
    (hc : s.net.callers[k]? = some c) (hrequest : c.requestHead = .kept)
    (hsmall : ∀ run ∈ s.net.runsOf k, ∀ result, run.outcome = .ok result →
      result.length < 2 ^ 32) :
    (s.net.runsOf k).length ≤ 1
    ∧ (∀ run ∈ s.net.runsOf k, run.outcome = caught ((func.answer args).exec run.call.world).1)
    ∧ match outcome with
      | .ok _ => c.responseHead = .kept → ∃ run, s.net.runsOf k = [run]
          ∧ remoteResult up (returnOf func) ((invoke func args).exec run.call.world).1
            = some (clientCall up func name args outcome)
      | .error what => clientCall up func name args outcome = .error (.std what) := by
  have hnet := net_of_reachable h
  obtain ⟨c', hc', hcalls, hbody, hstage⟩ :=
    calls_of_finished (sharedInv_of_reachable h) hpack hmem
  cases hc.symm.trans hc'
  have hwords : Fits c := by
    rw [Fits, hcalls.name, hbody]
    exact hfits
  obtain ⟨honce, hruns, hret⟩ := hagrees.transparent (netInv_of_reaches hnet)
    (serverInv_of_reachable (server_of_reaches hnet)) hc (.of_kept hwords hrequest) func name args
    hcalls hbound hsmall
  refine ⟨honce, hruns, ?_⟩
  cases outcome with
  | ok ret => exact fun hresponse => hret hresponse ret hstage
  | error what =>
      show (protocolOf func name).call up (sessionCall (.error what)) args = _
      unfold ProtocolDefine.call
      rw [hpack]
      rfl

/-- Two threads call the echo at once, and the second one gets its 9. -/
theorem shared_calls_are_calls_echo : ∃ s : SharedClient bytePack Unit, ∃ run,
    s.finished.length = 2 ∧ s.net.runsOf 1 = [run]
    ∧ remoteResult byteUnpacker (returnOf echoFunction)
        ((invoke echoFunction fun _ => (9 : UInt8)).exec run.call.world).1
      = some (.ok (9 : UInt8)) := by
  have hexec : exec (sharedSystem echoBindings) sharedByTwo twoCalls = some _ := rfl
  have hreach := (Reachable.start sharedByTwo_start).exec hexec
  have hpack : (protocolOf echoFunction [101]).pack (fun _ => (9 : UInt8)) = .ok [9] := rfl
  have hmem : Finished.called ⟨[101], .nonRaw, [9]⟩ 1 (.ok [9])
      ∈ [.called ⟨[101], .nonRaw, [7]⟩ 0 (.ok [7]), .called ⟨[101], .nonRaw, [9]⟩ 1 (.ok [9])] :=
    List.mem_cons_of_mem _ List.mem_cons_self
  have hcall := shared_calls_are_calls byteUnpacker_agrees hreach echoFunction rfl hpack
    (by decide) hmem rfl rfl ?_
  · obtain ⟨run, hruns, hresult⟩ := hcall.2.2 rfl
    exact ⟨_, run, rfl, hruns, hresult⟩
  · intro run hrun result hresult
    cases List.mem_singleton.mp hrun
    cases hresult
    decide

end EasyRpcSharedTypedCall
