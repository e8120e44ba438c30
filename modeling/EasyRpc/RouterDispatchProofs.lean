import Mathlib.Data.Fin.Tuple.Basic
import EasyRpc.ConnectionProofs
import EasyRpc.ThrowingProofs

/-! # Dispatching a request — argument unpacking, the handler and its result

    `router::bind` wraps a handler into an entry of the invoker maps.  When a task runs, the
    entry's `operator()` builds a parser on the body, and `invoker<Function, I, N>` unpacks one
    argument a level until the tuple is complete, calls the handler and packs what it returns.
    Every level has a `catch (std::exception&)` that logs and returns; the raw forms have one as
    well, and one more in `operator()` logs and disconnects. -/

namespace EasyRpcDispatch

open Throwing EasyRpcWire EasyRpcConnection

/-- The serialisation library: the types it knows, its parser and its packer. -/
structure Easypack where
  Ty : Type
  Val : Ty → Type
  Unpack : Type
  -- the constructor `easypack::unpack(text)`
  unpack : Str → Except Exn Unpack
  unpackTop : (t : Ty) → Unpack → Except Exn (Val t × Unpack)
  -- `pack_args` on a fresh packer, then `get_string`
  packArgs : List ((t : Ty) × Val t) → Except Exn Str

/-- What `function_traits` says of a callable; its return type is in `Function`. -/
structure FunctionTraits (ep : Easypack) where
  arity : Nat
  args : Fin arity → ep.Ty

/-- What one run of an entry works on: the state the handlers act on, the `result` string and
    the lines of `log_warn`. -/
structure Call (World : Type) where
  world : World
  result : Str
  log : List String

variable {ep : Easypack} {traits : FunctionTraits ep} {World Self : Type}

/-- `std::tuple` of the first `n` arguments. -/
def Tuple (traits : FunctionTraits ep) (n : Nat) (h : n ≤ traits.arity) : Type :=
  (i : Fin n) → ep.Val (traits.args (i.castLE h))

/-- The tuple of all arguments. -/
abbrev Args (traits : FunctionTraits ep) : Type := Tuple traits traits.arity (Nat.le_refl _)

/-- A free function, by its return type. -/
inductive Function (traits : FunctionTraits ep) (World : Type) where
  | void (func : Args traits → Comp World Unit)
  | value (t : ep.Ty) (func : Args traits → Comp World (ep.Val t))

/-- A member function of `Self`, by its return type. -/
inductive MemberFunction (traits : FunctionTraits ep) (Self World : Type) where
  | void (func : Self → Args traits → Comp World Unit)
  | value (t : ep.Ty) (func : Self → Args traits → Comp World (ep.Val t))

/-- A raw function: of the body, with a string as its result or none. -/
inductive FunctionRaw (World : Type) where
  | void (func : Str → Comp World Unit)
  | value (func : Str → Comp World Str)

/-- A raw member function, which takes the object it is called on first. -/
inductive MemberFunctionRaw (Self World : Type) where
  | void (func : Self → Str → Comp World Unit)
  | value (func : Self → Str → Comp World Str)

/-- `(*self.*func)`. -/
def MemberFunction.of (func : MemberFunction traits Self World) (self : Self) :
    Function traits World :=
  match func with
  | .void func => .void (func self)
  | .value t func => .value t (func self)

/-- Bound to its object, a raw member function is a raw function. -/
def MemberFunctionRaw.of (func : MemberFunctionRaw Self World) (self : Self) :
    FunctionRaw World :=
  match func with
  | .void func => .void (func self)
  | .value func => .value (func self)

/-! ## The calls -/

/-- The handler's state within a call. -/
def worldLens : Lens (Call World) World where
  get c := c.world
  set c w := { c with world := w }
  get_set _ _ := rfl
  set_get _ := rfl
  set_set _ _ _ := rfl

/-- The assignment to `result`. -/
def setResult (result : Str) : Comp (Call World) Unit :=
  update fun c => { c with result := result }

/-- `logger::log_warn`, whose line is recorded here.  It returns where its loggers have been made
    and take the line; `EasyRpcWorkerSurvival` has the processes in which they are missing. -/
def logWarn (what : String) : Comp (Call World) Unit :=
  update fun c => { c with log := c.log ++ [what] }

/-- `pack(args...)` of `parser_util.hpp`. -/
def pack (ep : Easypack) (args : List ((t : ep.Ty) × ep.Val t)) : Except Exn Str :=
  ep.packArgs args

/-- `call` and `call_impl`: the function runs on its arguments, and its value is packed into the
    result. Of a void function the result is what `pack` makes of nothing. -/
def call (func : Function traits World) (tp : Args traits) : Comp (Call World) Unit :=
  match func with
  | .void func => do
      onPart worldLens (func tp)
      let result ← fromExcept (pack ep [])
      setResult result
  | .value t func => do
      let ret ← onPart worldLens (func tp)
      let result ← fromExcept (pack ep [⟨t, ret⟩])
      setResult result

/-- `call_member`: `call` on the object given at the bind. -/
def callMember (func : MemberFunction traits Self World) (self : Self) (tp : Args traits) :
    Comp (Call World) Unit :=
  call (func.of self) tp

/-- `call_raw`: the string the function returns, or the empty string of a void function. -/
def callRaw (func : FunctionRaw World) (body : Str) : Comp (Call World) Unit :=
  match func with
  | .void func => do
      onPart worldLens (func body)
      setResult []
  | .value func => do
      let ret ← onPart worldLens (func body)
      setResult ret

/-- `call_member_raw`: `call_raw` on the object given at the bind. -/
def callMemberRaw (func : MemberFunctionRaw Self World) (self : Self) (body : Str) :
    Comp (Call World) Unit :=
  callRaw (func.of self) body

/-! ## The recursion over the arguments -/

/-- `std::tuple<>()`. -/
def emptyTuple : Tuple traits 0 (Nat.zero_le _) := fun i => i.elim0

/-- `std::tuple_cat(args, std::make_tuple(value))`. -/
def tupleCat {n : Nat} {h : n + 1 ≤ traits.arity}
    (args : Tuple traits n (Nat.le_of_succ_le h)) (value : ep.Val (traits.args ⟨n, h⟩)) :
    Tuple traits (n + 1) h :=
  Fin.snoc (α := fun i => ep.Val (traits.args (i.castLE h))) args value

/-- The tuple of `arity` arguments is the tuple of all. -/
def allArgs {n : Nat} {h : n ≤ traits.arity} (hn : n = traits.arity)
    (args : Tuple traits n h) : Args traits :=
  fun i => args (i.cast hn.symm)

/-- `invoker<Function, I, N>::apply` and `apply_member`, with `rest` arguments to go; `callee` is
    the `call` at the end of the recursion. -/
def Invoker.applyFrom (callee : Args traits → Comp (Call World) Unit) :
    (rest I : Nat) → (h : I + rest = traits.arity) → Tuple traits I (h ▸ Nat.le_add_right I rest) →
      ep.Unpack → Comp (Call World) Unit
  | 0, _, h, args, _ => catchStd (callee (allArgs h args)) logWarn
  | rest + 1, I, h, args, parser =>
      catchStd
        (do
          let got ← fromExcept (ep.unpackTop (traits.args ⟨I, by omega⟩) parser)
          applyFrom callee rest (I + 1) (by omega) (tupleCat (h := by omega) args got.1) got.2)
        logWarn

/-- `invoker::apply` at the first argument. -/
def Invoker.apply (func : Function traits World) (parser : ep.Unpack) :
    Comp (Call World) Unit :=
  applyFrom (call func) traits.arity 0 (Nat.zero_add _) emptyTuple parser

/-- `invoker::apply_member` at the first argument. -/
def Invoker.applyMember (func : MemberFunction traits Self World) (self : Self)
    (parser : ep.Unpack) : Comp (Call World) Unit :=
  applyFrom (callMember func self) traits.arity 0 (Nat.zero_add _) emptyTuple parser

/-- `invoker_raw::apply`, with its own catch around the call. -/
def InvokerRaw.apply (func : FunctionRaw World) (body : Str) : Comp (Call World) Unit :=
  catchStd (callRaw func body) logWarn

/-- `invoker_raw::apply_member`. -/
def InvokerRaw.applyMember (func : MemberFunctionRaw Self World) (self : Self) (body : Str) :
    Comp (Call World) Unit :=
  catchStd (callMemberRaw func self body) logWarn

/-! ## The entries of the maps and the task -/

/-- `invoker_function`. -/
structure InvokerFunction (ep : Easypack) (World : Type) where
  func : ep.Unpack → Comp (Call World) Unit
  paramSize : Nat

/-- `invoker_function_raw`. -/
structure InvokerFunctionRaw (World : Type) where
  func : Str → Comp (Call World) Unit

/-- What a task works on: the call and the connection it answers. -/
structure TaskState (World : Type) where
  call : Call World
  conn : Connection

/-- The part of a task's state that the function works on. -/
def callLens : Lens (TaskState World) (Call World) where
  get s := s.call
  set s c := { s with call := c }
  get_set _ _ := rfl
  set_get _ := rfl
  set_set _ _ _ := rfl

/-- `conn->write(result)`; `ec` is the error the operating system reports, if any, and `remains`
    what is left of the header by then. -/
def writeResult (remains : Remains responseHeaderLen) (ec : Option String) :
    Comp (TaskState World) Unit :=
  Comp.of fun s =>
    match s.conn.write s.call.result remains ec with
    | .ok c => (.ok (), { s with conn := c })
    | .error message => (.error (.std message), s)

/-- The clause of `operator()`: `log_warn(e.what()); conn->disconnect();`. -/
def disconnectOn (what : String) : Comp (TaskState World) Unit := do
  onPart callLens (logWarn what)
  update fun s => { s with conn := s.conn.disconnect }

/-- `invoker_function::operator()`: unpack the body, run the function into an empty `result`, and
    write it, all in one `try`. -/
def InvokerFunction.operatorCall (f : InvokerFunction ep World) (body : Str)
    (remains : Remains responseHeaderLen) (ec : Option String) : Comp (TaskState World) Unit :=
  catchStd
    (do
      let parser ← fromExcept (ep.unpack body)
      onPart callLens (setResult [])
      onPart callLens (f.func parser)
      writeResult remains ec)
    disconnectOn

/-- `invoker_function_raw::operator()`, which hands the body over as it is. -/
def InvokerFunctionRaw.operatorCall (f : InvokerFunctionRaw World) (body : Str)
    (remains : Remains responseHeaderLen) (ec : Option String) : Comp (TaskState World) Unit :=
  catchStd
    (do
      onPart callLens (setResult [])
      onPart callLens (f.func body)
      writeResult remains ec)
    disconnectOn

/-- `bind_non_member_func`. -/
def bindNonMemberFunc (func : Function traits World) : InvokerFunction ep World :=
  ⟨Invoker.apply func, traits.arity⟩

/-- `bind_member_func`. -/
def bindMemberFunc (func : MemberFunction traits Self World) (self : Self) :
    InvokerFunction ep World :=
  ⟨Invoker.applyMember func self, traits.arity⟩

/-- `bind_non_member_func_raw`. -/
def bindNonMemberFuncRaw (func : FunctionRaw World) : InvokerFunctionRaw World :=
  ⟨InvokerRaw.apply func⟩

/-- `bind_member_func_raw`. -/
def bindMemberFuncRaw (func : MemberFunctionRaw Self World) (self : Self) :
    InvokerFunctionRaw World :=
  ⟨InvokerRaw.applyMember func self⟩

/-- A handler, by the form it is bound through. -/
inductive Handler (ep : Easypack) (World : Type) where
  | nonMember {traits : FunctionTraits ep} (func : Function traits World)
  | member {traits : FunctionTraits ep} {Self : Type}
      (func : MemberFunction traits Self World) (self : Self)
  | nonMemberRaw (func : FunctionRaw World)
  | memberRaw {Self : Type} (func : MemberFunctionRaw Self World) (self : Self)

/-- An entry of one of the two maps. -/
inductive Entry (ep : Easypack) (World : Type) where
  | invoker (f : InvokerFunction ep World)
  | raw (f : InvokerFunctionRaw World)

/-- The call of the closure in `route`, on the entry of either map. -/
def Entry.operatorCall (entry : Entry ep World) (body : Str)
    (remains : Remains responseHeaderLen) (ec : Option String) : Comp (TaskState World) Unit :=
  match entry with
  | .invoker f => f.operatorCall body remains ec
  | .raw f => f.operatorCall body remains ec

/-- What `bind` and `bind_raw` put into the maps. -/
def Handler.entry : Handler ep World → Entry ep World
  | .nonMember func => .invoker (bindNonMemberFunc func)
  | .member func self => .invoker (bindMemberFunc func self)
  | .nonMemberRaw func => .raw (bindNonMemberFuncRaw func)
  | .memberRaw func self => .raw (bindMemberFuncRaw func self)

/-- Running the task of a request for a bound handler. -/
def Handler.runTask (handler : Handler ep World) (body : Str)
    (remains : Remains responseHeaderLen) (ec : Option String) : Comp (TaskState World) Unit :=
  handler.entry.operatorCall body remains ec

/-! ## What a request asks for

    The same handlers without any `catch`: unpack all arguments, call, pack. -/

/-- The arguments that successive `unpack_top` calls yield. -/
def unpackArgs : (rest I : Nat) → (h : I + rest = traits.arity) →
    Tuple traits I (h ▸ Nat.le_add_right I rest) → ep.Unpack → Except Exn (Args traits)
  | 0, _, h, args, _ => .ok (allArgs h args)
  | rest + 1, I, h, args, parser => do
      let got ← ep.unpackTop (traits.args ⟨I, by omega⟩) parser
      unpackArgs rest (I + 1) (by omega) (tupleCat (h := by omega) args got.1) got.2

/-- The packed result of a function on its arguments. -/
def Function.answer (func : Function traits World) (tp : Args traits) : Comp World Str :=
  match func with
  | .void func => func tp >>= fun _ => fromExcept (ep.packArgs [])
  | .value t func => func tp >>= fun ret => fromExcept (ep.packArgs [⟨t, ret⟩])

/-- What a raw function is asked for: its string, empty if it is void. -/
def FunctionRaw.answer (func : FunctionRaw World) (body : Str) : Comp World Str :=
  match func with
  | .void func => func body >>= fun _ => pure []
  | .value func => func body

/-- The answer to a request once its parser is built. -/
def Function.request (func : Function traits World) (parser : ep.Unpack) : Comp World Str :=
  fromExcept (unpackArgs traits.arity 0 (Nat.zero_add _) emptyTuple parser)
    >>= func.answer

/-- The answer to a request; an error where the parser cannot even be built. -/
def Handler.request (handler : Handler ep World) (body : Str) : Except Exn (Comp World Str) :=
  match handler with
  | .nonMember func => (ep.unpack body).map func.request
  | .member func self => (ep.unpack body).map (func.of self).request
  | .nonMemberRaw func => .ok (func.answer body)
  | .memberRaw func self => .ok ((func.of self).answer body)

/-! ## The nested clauses come to one -/

/-- A message that is logged lets the clause end, once the loggers have been made. -/
theorem logWarn_returns : Returns (logWarn : String → Comp (Call World) Unit) :=
  fun _ _ => ⟨_, _, rfl⟩

/-- `call` is the function's answer followed by the assignment. -/
theorem call_eq (func : Function traits World) (tp : Args traits) :
    call func tp = onPart worldLens (func.answer tp) >>= setResult := by
  cases func with
  | void func =>
      rw [Function.answer, onPart_bind, bind_assoc]
      simp only [onPart_fromExcept]
      rfl
  | value t func =>
      rw [Function.answer, onPart_bind, bind_assoc]
      simp only [onPart_fromExcept]
      rfl

/-- `call_raw` is the raw function's answer followed by the assignment. -/
theorem callRaw_eq (func : FunctionRaw World) (body : Str) :
    callRaw func body = onPart worldLens (func.answer body) >>= setResult := by
  cases func with
  | void func =>
      rw [FunctionRaw.answer, onPart_bind, bind_assoc]
      rfl
  | value func => rfl

/-- Every level of the recursion catches what the levels below let through: nothing new. -/
theorem Invoker.applyFrom_eq (callee : Args traits → Comp (Call World) Unit) (rest : Nat) :
    ∀ (I : Nat) (h : I + rest = traits.arity)
      (args : Tuple traits I (h ▸ Nat.le_add_right I rest)) (parser : ep.Unpack),
      Invoker.applyFrom callee rest I h args parser
        = catchStd (fromExcept (unpackArgs rest I h args parser) >>= callee) logWarn := by
  induction rest with
  | zero => exact fun I h args parser => rfl
  | succ rest ih =>
      intro I h args parser
      rw [Invoker.applyFrom, unpackArgs, fromExcept_bind]
      simp only [ih]
      exact catchStd_bind logWarn_returns _ _

/-- A call whose exception, if any, is logged and leaves the empty result. -/
def swallow (answer : Comp World Str) : Comp (Call World) Unit :=
  catchStd (onPart worldLens answer >>= setResult) logWarn

/-- `invoker::apply` is the whole request with its exceptions swallowed. -/
theorem Invoker.apply_eq (func : Function traits World) (parser : ep.Unpack) :
    Invoker.apply func parser = swallow (func.request parser) := by
  have hcall : call func = fun tp => onPart worldLens (func.answer tp) >>= setResult :=
    funext (call_eq func)
  rw [Invoker.apply, Invoker.applyFrom_eq, swallow, Function.request, onPart_bind,
    onPart_fromExcept, bind_assoc, hcall]

/-- `invoker::apply_member` is the same of the bound function. -/
theorem Invoker.applyMember_eq (func : MemberFunction traits Self World) (self : Self)
    (parser : ep.Unpack) :
    Invoker.applyMember func self parser = swallow ((func.of self).request parser) :=
  Invoker.apply_eq (func.of self) parser

/-- `invoker_raw::apply` is the raw answer with its exceptions swallowed. -/
theorem InvokerRaw.apply_eq (func : FunctionRaw World) (body : Str) :
    InvokerRaw.apply func body = swallow (func.answer body) := by
  rw [InvokerRaw.apply, callRaw_eq]
  rfl

/-- The task of a request: the answer with its exceptions swallowed, then the write. -/
def respondWith (request : Except Exn (Comp World Str)) (remains : Remains responseHeaderLen)
    (ec : Option String) : Comp (TaskState World) Unit :=
  catchStd
    (do
      let answer ← fromExcept request
      onPart callLens (setResult [])
      onPart callLens (swallow answer)
      writeResult remains ec)
    disconnectOn

/-- **DISPATCH**: all four bind forms run the same task on the answer to their request. -/
theorem Handler.runTask_eq (handler : Handler ep World) (body : Str)
    (remains : Remains responseHeaderLen) (ec : Option String) :
    handler.runTask body remains ec = respondWith (handler.request body) remains ec := by
  cases handler with
  | nonMember func =>
      show (bindNonMemberFunc func).operatorCall body remains ec = _
      rw [respondWith, Handler.request, fromExcept_map]
      simp only [InvokerFunction.operatorCall, bindNonMemberFunc, Invoker.apply_eq]
  | member func self =>
      show (bindMemberFunc func self).operatorCall body remains ec = _
      rw [respondWith, Handler.request, fromExcept_map]
      simp only [InvokerFunction.operatorCall, bindMemberFunc, Invoker.applyMember_eq]
  | nonMemberRaw func =>
      show (bindNonMemberFuncRaw func).operatorCall body remains ec = _
      rw [respondWith, Handler.request, fromExcept_ok_bind]
      simp only [InvokerFunctionRaw.operatorCall, bindNonMemberFuncRaw, InvokerRaw.apply_eq]
  | memberRaw func self =>
      show (bindMemberFuncRaw func self).operatorCall body remains ec = _
      rw [respondWith, Handler.request, fromExcept_ok_bind]
      show (InvokerFunctionRaw.mk fun body => InvokerRaw.apply (func.of self) body).operatorCall
        body remains ec = _
      simp only [InvokerFunctionRaw.operatorCall, InvokerRaw.apply_eq]

/-! ## What the task leaves -/

section Outcomes

variable {answer : Comp World Str} {w : World} {result : Str} {what : String}

theorem exec_swallow_ok {c : Call World} (h : answer.exec c.world = (.ok result, w)) :
    (swallow answer).exec c = (.ok (), { c with world := w, result := result }) :=
  exec_catchStd_ok (exec_bind_ok (exec_onPart_of (l := worldLens) h))

/-- A swallowed exception leaves the `result` string as it was. -/
theorem exec_swallow_std {c : Call World} (h : answer.exec c.world = (.error (.std what), w)) :
    (swallow answer).exec c = (.ok (), { c with world := w, log := c.log ++ [what] }) :=
  exec_catchStd_std (exec_bind_error (exec_onPart_of (l := worldLens) h))

/-- What is no `std::exception` goes through the catch. -/
theorem exec_swallow_other {c : Call World} (h : answer.exec c.world = (.error .other, w)) :
    (swallow answer).exec c = (.error .other, { c with world := w }) :=
  exec_catchStd_other (exec_bind_error (exec_onPart_of (l := worldLens) h))

/-- What the clause of `operator()` logs of a write. -/
def writeWarnings (c : Connection) (result : Str) (remains : Remains responseHeaderLen)
    (ec : Option String) : List String :=
  match c.write result remains ec with
  | .ok _ => []
  | .error message => [message]

/-- Writing the result, with the clause of `operator()` around it. -/
theorem exec_writeResult (s : TaskState World) (remains : Remains responseHeaderLen)
    (ec : Option String) :
    (catchStd (writeResult remains ec) disconnectOn).exec s
      = (.ok (), ⟨{ s.call with
            log := s.call.log ++ writeWarnings s.conn s.call.result remains ec },
          s.conn.respond (.ok s.call.result) remains ec⟩) := by
  cases hw : s.conn.write s.call.result remains ec with
  | ok c =>
      have hexec : (writeResult remains ec).exec s = (.ok (), { s with conn := c }) := by
        rw [writeResult, exec_of, hw]
      rw [exec_catchStd_ok hexec]
      simp only [Connection.respond, writeWarnings, hw, List.append_nil]
  | error message =>
      have hexec : (writeResult remains ec).exec s = (.error (.std message), s) := by
        rw [writeResult, exec_of, hw]
      rw [exec_catchStd_std hexec]
      simp only [Connection.respond, writeWarnings, hw]
      rfl

variable {s : TaskState World} {remains : Remains responseHeaderLen} {ec : Option String}

/-- From the parser on, the task is the swallowed answer and then the write. -/
theorem exec_respondWith {c : Call World}
    (h : (swallow answer).exec { s.call with result := [] } = (.ok (), c)) :
    (respondWith (.ok answer) remains ec).exec s
      = (catchStd (writeResult remains ec) disconnectOn).exec { s with call := c } := by
  have hreset : (setResult []).exec s.call = (.ok (), { s.call with result := [] }) := rfl
  refine exec_catchStd_congr ?_
  rw [fromExcept_ok_bind, exec_bind_ok (exec_onPart_of (l := callLens) hreset),
    exec_bind_ok (exec_onPart_of (l := callLens) h)]
  rfl

theorem respondWith_ok (h : answer.exec s.call.world = (.ok result, w)) :
    (respondWith (.ok answer) remains ec).exec s
      = (.ok (), ⟨⟨w, result, s.call.log ++ writeWarnings s.conn result remains ec⟩,
          s.conn.respond (.ok result) remains ec⟩) := by
  rw [exec_respondWith (exec_swallow_ok (c := { s.call with result := [] }) h)]
  exact exec_writeResult _ remains ec

/-- **A SWALLOWED EXCEPTION IS ANSWERED** with the empty result. -/
theorem respondWith_std (h : answer.exec s.call.world = (.error (.std what), w)) :
    (respondWith (.ok answer) remains ec).exec s
      = (.ok (), ⟨⟨w, [], s.call.log ++ [what] ++ writeWarnings s.conn [] remains ec⟩,
          s.conn.respond (.ok []) remains ec⟩) := by
  rw [exec_respondWith (exec_swallow_std (c := { s.call with result := [] }) h)]
  exact exec_writeResult _ remains ec

/-- A value that is no `std::exception` leaves the task. -/
theorem respondWith_other (h : answer.exec s.call.world = (.error .other, w)) :
    (respondWith (.ok answer) remains ec).exec s
      = (.error .other, ⟨{ s.call with world := w, result := [] }, s.conn⟩) := by
  have hreset : (setResult []).exec s.call = (.ok (), { s.call with result := [] }) := rfl
  have hswallow := exec_swallow_other (c := { s.call with result := [] }) h
  refine exec_catchStd_other ?_
  rw [fromExcept_ok_bind, exec_bind_ok (exec_onPart_of (l := callLens) hreset),
    exec_bind_error (exec_onPart_of (l := callLens) hswallow)]
  rfl

/-- A parser that cannot be built reaches the clause of `operator()`. -/
theorem respondWith_unparsed (e : Exn) :
    (respondWith (.error e) remains ec).exec s = match e with
      | .std what =>
          (.ok (), ⟨{ s.call with log := s.call.log ++ [what] }, s.conn.disconnect⟩)
      | .other => (.error .other, s) := by
  cases e with
  | std what => rfl
  | other => rfl

end Outcomes

/-! ## The function and the write, one after the other -/

/-- `operator()` up to the write. -/
def Entry.run (entry : Entry ep World) (body : Str) : Comp (Call World) Unit :=
  match entry with
  | .invoker f => do
      let parser ← fromExcept (ep.unpack body)
      setResult []
      f.func parser
  | .raw f => do
      setResult []
      f.func body

/-- The `result` string that the function leaves, or what it throws. -/
def Entry.outcome (entry : Entry ep World) (body : Str) (c : Call World) : Except Exn Str :=
  match (entry.run body).exec c with
  | (.ok (), c') => .ok c'.result
  | (.error e, _) => .error e

/-- **BOTH KINDS OF ENTRY ARE ONE PATTERN**: run, write the result, and close the connection where
    the write or the unpacking throws. -/
theorem Entry.operatorCall_eq (entry : Entry ep World) (body : Str)
    (remains : Remains responseHeaderLen) (ec : Option String) :
    entry.operatorCall body remains ec
      = catchStd (onPart callLens (entry.run body) >>= fun _ => writeResult remains ec)
          disconnectOn := by
  cases entry with
  | invoker f =>
      show f.operatorCall body remains ec = _
      rw [InvokerFunction.operatorCall, Entry.run, onPart_bind, onPart_fromExcept]
      simp only [onPart_bind, bind_assoc]
  | raw f =>
      show f.operatorCall body remains ec = _
      rw [InvokerFunctionRaw.operatorCall, Entry.run, onPart_bind]
      simp only [bind_assoc]

/-- **ONE TASK**: what the task does to its connection depends on the outcome of the function
    alone; only a value that is no `std::exception` leaves the task. -/
theorem Entry.operatorCall_outcome (entry : Entry ep World) (body : Str)
    (remains : Remains responseHeaderLen) (ec : Option String) (s : TaskState World) :
    let left := (entry.operatorCall body remains ec).exec s
    match entry.outcome body s.call with
    | .ok result => left.1 = .ok () ∧ left.2.conn = s.conn.respond (.ok result) remains ec
    | .error (.std what) => left.1 = .ok () ∧ left.2.conn = s.conn.respond (.error what) remains ec
    | .error .other => left.1 = .error .other ∧ left.2.conn = s.conn := by
  rw [Entry.operatorCall_eq, Entry.outcome]
  rcases hrun : (entry.run body).exec s.call with ⟨e | ⟨⟨⟩⟩, c⟩
  · have hpart := exec_bind_error (f := fun _ => writeResult remains ec)
      (exec_onPart_of (l := callLens) hrun)
    cases e with
    | std what =>
        rw [exec_catchStd_std hpart]
        exact ⟨rfl, rfl⟩
    | other =>
        rw [exec_catchStd_other hpart]
        exact ⟨rfl, rfl⟩
  · have hpart := exec_bind_ok (f := fun _ => writeResult remains ec)
      (exec_onPart_of (l := callLens) hrun)
    rw [exec_catchStd_congr hpart, exec_writeResult]
    exact ⟨rfl, rfl⟩

/-! ## Errors and answers -/

/-- Every argument was unpacked, the handler returned, and its result was packed. -/
def Handler.Answers (handler : Handler ep World) (body : Str) (w : World) : Prop :=
  ∃ answer result w', handler.request body = .ok answer ∧ answer.exec w = (.ok result, w')

/-- Unpacking an argument, the handler or packing its result throws a `std::exception`. -/
def Handler.ThrowsStd (handler : Handler ep World) (body : Str) (w : World) : Prop :=
  ∃ answer what w', handler.request body = .ok answer
    ∧ answer.exec w = (.error (.std what), w')

/-- The task writes a frame only for an answer, and after a `std::exception` it writes none and
    the connection is disconnected. -/
def ErrorsNotAnswered (handler : Handler ep World) (body : Str)
    (remains : Remains responseHeaderLen) (ec : Option String) (s : TaskState World) : Prop :=
  let conn := ((handler.runTask body remains ec).exec s).2.conn
  (conn.sent ≠ s.conn.sent → handler.Answers body s.call.world)
  ∧ (handler.ThrowsStd body s.call.world → conn.sent = s.conn.sent ∧ conn.isOpen = false)

/-- The empty result is written, unless the socket is closed or the write fails. -/
theorem respond_empty (c : Connection) (remains : Remains responseHeaderLen)
    (ec : Option String) :
    ((c.respond (.ok []) remains ec).sent = c.sent
        ∧ (c.respond (.ok []) remains ec).isOpen = false)
      ↔ c.isOpen = false ∨ ec ≠ none := by
  constructor
  · rintro ⟨hsent, hclosed⟩
    by_contra hno
    rw [not_or, Bool.not_eq_false, not_not] at hno
    obtain ⟨hopen, rfl⟩ := hno
    rw [Connection.respond, Connection.write_empty hopen remains] at hclosed
    rw [hopen] at hclosed
    cases hclosed
  · intro h
    obtain ⟨body, hbody, hw⟩ | ⟨heq, -⟩ := c.respond_cases (.ok []) remains ec
    · obtain ⟨hopen, hec, -⟩ := Connection.write_ok hw
      rcases h with hclosed | hfail
      · rw [hclosed] at hopen
        cases hopen
      · exact absurd hec hfail
    · rw [heq]
      exact ⟨c.disconnect_sent, c.disconnect_isOpen⟩

/-- Where nothing the inner clauses catch is thrown, errors are not answered. -/
theorem errorsNotAnswered_of_not_throwsStd {handler : Handler ep World} {body : Str}
    {remains : Remains responseHeaderLen} {ec : Option String} {s : TaskState World}
    (hno : ¬ handler.ThrowsStd body s.call.world) :
    ErrorsNotAnswered handler body remains ec s := by
  refine ⟨?_, fun hstd => absurd hstd hno⟩
  rw [Handler.runTask_eq]
  intro hsent
  cases hreq : handler.request body with
  | error e =>
      rw [hreq, respondWith_unparsed] at hsent
      cases e with
      | std what => exact absurd s.conn.disconnect_sent hsent
      | other => exact absurd rfl hsent
  | ok answer =>
      rcases hexec : answer.exec s.call.world with ⟨e | result, w⟩
      · cases e with
        | std what => exact absurd ⟨answer, what, w, hreq, hexec⟩ hno
        | other =>
            rw [hreq, respondWith_other hexec] at hsent
            exact absurd rfl hsent
      · exact ⟨answer, result, w, hreq, hexec⟩

/-- **ERRORS AND ANSWERS**: an error is not answered as success exactly when no `std::exception`
    comes out of the unpacking, the handler or the packing, or the write itself cannot work.  What
    is left of the header has no part in it. -/
theorem errorsNotAnswered_iff (handler : Handler ep World) (body : Str)
    (remains : Remains responseHeaderLen) (ec : Option String) (s : TaskState World) :
    ErrorsNotAnswered handler body remains ec s ↔
      ¬ handler.ThrowsStd body s.call.world ∨ s.conn.isOpen = false ∨ ec ≠ none := by
  by_cases hstd : handler.ThrowsStd body s.call.world
  · -- the exception is swallowed, so the connection is answered with the empty result
    obtain ⟨answer, what, w, hreq, hexec⟩ := id hstd
    rw [ErrorsNotAnswered, Handler.runTask_eq, hreq, respondWith_std hexec,
      ← respond_empty _ remains]
    constructor
    · intro h
      exact Or.inr (h.2 hstd)
    · intro h
      have hend := h.resolve_left (not_not_intro hstd)
      exact ⟨fun hne => absurd hend.1 hne, fun _ => hend⟩
  · exact ⟨fun _ => Or.inl hstd, fun _ => errorsNotAnswered_of_not_throwsStd hstd⟩

/-- A serialisation of single bytes, one after the other. -/
def bytePack : Easypack where
  Ty := Unit
  Val _ := UInt8
  Unpack := Str
  unpack text := .ok text
  unpackTop _
    | [] => .error (.std "insufficient bytes!")
    | byte :: rest => .ok (byte, rest)
  packArgs args := .ok (args.map fun arg => arg.2)

/-- A function that returns its one argument. -/
def echoFunction : Function (⟨1, fun _ => ()⟩ : FunctionTraits bytePack) Unit :=
  .value () fun tp => pure (tp ⟨0, Nat.one_pos⟩)

/-- The handler that returns the string it was called with. -/
def echo : Handler bytePack Unit := .nonMember echoFunction

/-- A request without its argument is answered with the empty result. -/
theorem missing_argument_answered :
    echo.ThrowsStd [] ()
    ∧ ((echo.runTask [] .kept none).exec ⟨⟨(), [], []⟩, .create 0⟩).2.conn.sent = [[0, 0, 0, 0]]
    ∧ ¬ ErrorsNotAnswered echo [] .kept none ⟨⟨(), [], []⟩, .create 0⟩ := by
  have hstd : echo.ThrowsStd [] () := ⟨_, "insufficient bytes!", (), rfl, rfl⟩
  refine ⟨hstd, rfl, ?_⟩
  intro h
  exact nomatch (h.2 hstd).2

end EasyRpcDispatch
