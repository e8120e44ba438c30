import EasyRpc.RouterDispatchProofs

/-! # Dispatching arguments — which call a body comes to

    A body packs a list of values; the parser yields them one after the other, each for the type
    it was packed with, and throws a `std::exception` for another type and past the end.  The
    recursion of `invoker` asks for one value a level, so the handler is called exactly when the
    values begin with one of the right type for every parameter, once, and with these values in
    order (`arguments_dispatched`).

    To speak of the calls, the handler is run with a trace: it notes its arguments and then goes
    on as before. -/

namespace EasyRpcArgumentDispatch

open Throwing EasyRpcWire EasyRpcConnection EasyRpcDispatch

variable {ep : Easypack} {traits : FunctionTraits ep} {World Self : Type}

/-! ## Bodies -/

/-- Successive `unpack_top` calls yield the values in order, each at its own type; at another
    type and past the end they throw a `std::exception`. -/
def Packs (ep : Easypack) : ep.Unpack → List ((t : ep.Ty) × ep.Val t) → Prop
  | parser, [] => ∀ t, ∃ what, ep.unpackTop t parser = .error (.std what)
  | parser, v :: vs =>
      (∃ parser', ep.unpackTop v.1 parser = .ok (v.2, parser') ∧ Packs ep parser' vs)
      ∧ ∀ t, t ≠ v.1 → ∃ what, ep.unpackTop t parser = .error (.std what)

/-- An argument with its type. -/
def argAt (args : Args traits) (i : Fin traits.arity) : (t : ep.Ty) × ep.Val t :=
  ⟨traits.args i, args i⟩

/-- The values begin with the arguments, in order and with their types. -/
def Yields (vs : List ((t : ep.Ty) × ep.Val t)) (args : Args traits) : Prop :=
  ∀ i : Fin traits.arity, vs[i.val]? = some (argAt args i)

/-- The values begin with the arguments from the `I`-th on. -/
def YieldsFrom (I : Nat) (vs : List ((t : ep.Ty) × ep.Val t)) (args : Args traits) : Prop :=
  ∀ i : Fin traits.arity, I ≤ i.val → vs[i.val - I]? = some (argAt args i)

theorem yieldsFrom_zero {vs : List ((t : ep.Ty) × ep.Val t)} {args : Args traits} :
    YieldsFrom 0 vs args ↔ Yields vs args :=
  ⟨fun h i => h i (Nat.zero_le _), fun h i _ => h i⟩

/-- One value further: the first one is the `I`-th argument, and the rest goes on. -/
theorem yieldsFrom_cons {I : Nat} (hI : I < traits.arity) {v : (t : ep.Ty) × ep.Val t}
    {vs : List ((t : ep.Ty) × ep.Val t)} {args : Args traits} :
    YieldsFrom I (v :: vs) args ↔ v = argAt args ⟨I, hI⟩ ∧ YieldsFrom (I + 1) vs args := by
  have hnext : ∀ i : Fin traits.arity, I + 1 ≤ i.val →
      (v :: vs)[i.val - I]? = vs[i.val - (I + 1)]? := by
    intro i hi
    have hsucc : i.val - I = i.val - (I + 1) + 1 := by omega
    rw [hsucc, List.getElem?_cons_succ]
  constructor
  · intro h
    constructor
    · have hfirst := h ⟨I, hI⟩ (Nat.le_refl I)
      rw [Nat.sub_self] at hfirst
      exact Option.some.inj hfirst
    · intro i hi
      rw [← hnext i hi]
      exact h i (Nat.le_of_succ_le hi)
  · rintro ⟨hv, h⟩ i hi
    by_cases heq : i = ⟨I, hI⟩
    · subst heq
      rw [Nat.sub_self, hv]
      rfl
    · have hlt : I + 1 ≤ i.val := by
        have hne : i.val ≠ I := fun h => heq (Fin.ext h)
        omega
      rw [hnext i hlt]
      exact h i hlt

/-- `tuple_cat` appends behind the arguments already there. -/
theorem tupleCat_castSucc {n : Nat} {h : n + 1 ≤ traits.arity}
    (args : Tuple traits n (Nat.le_of_succ_le h)) (value : ep.Val (traits.args ⟨n, h⟩))
    (i : Fin n) : tupleCat (h := h) args value i.castSucc = args i :=
  Fin.snoc_castSucc _ _ _

theorem tupleCat_last {n : Nat} {h : n + 1 ≤ traits.arity}
    (args : Tuple traits n (Nat.le_of_succ_le h)) (value : ep.Val (traits.args ⟨n, h⟩)) :
    tupleCat (h := h) args value (Fin.last n) = value :=
  Fin.snoc_last _ _

/-- **UNPACKING**, from the `I`-th argument on: it yields what the values begin with, or throws a
    `std::exception` where they do not begin with arguments of the right types. -/
theorem unpackArgs_of_packs (rest : Nat) :
    ∀ (I : Nat) (h : I + rest = traits.arity)
      (args : Tuple traits I (h ▸ Nat.le_add_right I rest)) (parser : ep.Unpack)
      (vs : List ((t : ep.Ty) × ep.Val t)), Packs ep parser vs →
      (∃ full : Args traits, unpackArgs rest I h args parser = .ok full ∧ YieldsFrom I vs full
        ∧ ∀ i : Fin I, full (i.castLE (h ▸ Nat.le_add_right I rest)) = args i)
      ∨ ((∃ what, unpackArgs rest I h args parser = .error (.std what))
        ∧ ∀ full : Args traits, ¬ YieldsFrom I vs full) := by
  induction rest with
  | zero =>
      intro I h args parser vs hp
      refine Or.inl ⟨allArgs h args, rfl, ?_, fun i => rfl⟩
      intro i hi
      omega
  | succ rest ih =>
      intro I h args parser vs hp
      have hI : I < traits.arity := by omega
      cases vs with
      | nil =>
          obtain ⟨what, hthrow⟩ := hp (traits.args ⟨I, hI⟩)
          refine Or.inr ⟨⟨what, ?_⟩, ?_⟩
          · rw [unpackArgs, hthrow]
            rfl
          · intro full hfull
            cases hfull ⟨I, hI⟩ (Nat.le_refl I)
      | cons v vs =>
          obtain ⟨⟨parser', hyield, hrest⟩, hmismatch⟩ := hp
          by_cases ht : traits.args ⟨I, hI⟩ = v.1
          · obtain ⟨t, value⟩ := v
            cases ht
            have hstep : unpackArgs (rest + 1) I h args parser
                = unpackArgs rest (I + 1) (by omega) (tupleCat (h := hI) args value) parser' := by
              rw [unpackArgs, hyield]
              rfl
            rw [hstep]
            rcases ih (I + 1) (by omega) (tupleCat (h := hI) args value) parser' vs hrest with
              ⟨full, hfull, hyields, hbelow⟩ | ⟨hthrow, hnone⟩
            · refine Or.inl ⟨full, hfull, (yieldsFrom_cons hI).mpr ⟨?_, hyields⟩, ?_⟩
              · have hlast := (hbelow (Fin.last I)).trans (tupleCat_last args value)
                exact congrArg (Sigma.mk _) hlast.symm
              · intro i
                exact (hbelow i.castSucc).trans (tupleCat_castSucc args value i)
            · refine Or.inr ⟨hthrow, ?_⟩
              intro full hfull
              exact hnone full ((yieldsFrom_cons hI).mp hfull).2
          · obtain ⟨what, hthrow⟩ := hmismatch _ ht
            refine Or.inr ⟨⟨what, ?_⟩, ?_⟩
            · rw [unpackArgs, hthrow]
              rfl
            · intro full hfull
              obtain ⟨hv, -⟩ := (yieldsFrom_cons hI).mp hfull
              exact ht (congrArg Sigma.fst hv).symm

/-! ## Handlers with a trace -/

/-- The state of a handler, with the calls made of it so far. -/
structure Traced (traits : FunctionTraits ep) (World : Type) where
  world : World
  calls : List (Args traits)

/-- The world in a traced state. -/
def tracedLens : Lens (Traced traits World) World where
  get s := s.world
  set s w := { s with world := w }
  get_set _ _ := rfl
  set_get _ := rfl
  set_set _ _ _ := rfl

/-- Writing down the arguments of a call. -/
def note (tp : Args traits) : Comp (Traced traits World) Unit :=
  update fun s => { s with calls := s.calls ++ [tp] }

/-- The same function, which first notes its arguments. -/
def Function.traced (func : Function traits World) : Function traits (Traced traits World) :=
  match func with
  | .void func => .void fun tp => note tp >>= fun _ => onPart tracedLens (func tp)
  | .value t func => .value t fun tp => note tp >>= fun _ => onPart tracedLens (func tp)

/-- The function returns, and the packed return value is the string (`pack()` for void). -/
def Function.ReturnsPacked (func : Function traits World) (args : Args traits) (w : World)
    (result : Str) : Prop :=
  match func with
  | .void func => ((func args).exec w).1 = .ok () ∧ pack ep [] = .ok result
  | .value t func =>
      ∃ ret, ((func args).exec w).1 = .ok ret ∧ pack ep [⟨t, ret⟩] = .ok result

/-- What a run of `operator()` up to the write must do with a handler `func` and a body that
    packs `vs`: call it once with the arguments the values begin with and leave its packed return
    value, or never call it and leave the empty result. -/
structure Dispatches (func : Function traits World) (vs : List ((t : ep.Ty) × ep.Val t))
    (run : Comp (Call (Traced traits World)) Unit) : Prop where
  called : ∀ (args : Args traits) (w : World) (before : Str) (log : List String),
    Yields vs args →
      let left := (run.exec ⟨⟨w, []⟩, before, log⟩).2
      left.world.calls = [args]
      ∧ ∀ result, Function.ReturnsPacked func args w result → left.result = result
  notCalled : ∀ (w : World) (before : Str) (log : List String),
    (∀ args : Args traits, ¬ Yields vs args) →
      let left := (run.exec ⟨⟨w, []⟩, before, log⟩).2
      left.world.calls = [] ∧ left.result = []

theorem exec_note (tp : Args traits) (s : Traced traits World) :
    (note tp : Comp (Traced traits World) Unit).exec s
      = (.ok (), { s with calls := s.calls ++ [tp] }) := rfl

/-- A traced call notes its arguments and answers as the function does. -/
theorem traced_answer (func : Function traits World) (args : Args traits) :
    (Function.traced func).answer args
      = note args >>= fun _ => onPart tracedLens (func.answer args) := by
  cases func with
  | void func =>
      simp only [Function.traced, Function.answer, bind_assoc, onPart_bind, onPart_fromExcept]
  | value t func =>
      simp only [Function.traced, Function.answer, bind_assoc, onPart_bind, onPart_fromExcept]

/-- A traced function answers as it does untraced, and leaves its arguments. -/
theorem exec_traced_answer (func : Function traits World) (args : Args traits) (w : World) :
    ((Function.traced func).answer args).exec ⟨w, []⟩
      = (((func.answer args).exec w).1, ⟨((func.answer args).exec w).2, [args]⟩) := by
  rw [traced_answer, exec_bind_ok (exec_note args _)]
  rfl

/-- What a function that returns is answered with. -/
theorem answer_of_returnsPacked {func : Function traits World} {args : Args traits} {w : World}
    {result : Str} (h : Function.ReturnsPacked func args w result) :
    ((func.answer args).exec w).1 = .ok result := by
  cases func with
  | void func =>
      obtain ⟨hret, hpack⟩ := h
      rw [Function.answer, exec_bind]
      rcases hexec : (func args).exec w with ⟨r, w'⟩
      rw [hexec] at hret
      cases hret
      exact hpack
  | value t func =>
      obtain ⟨ret, hret, hpack⟩ := h
      rw [Function.answer, exec_bind]
      rcases hexec : (func args).exec w with ⟨r, w'⟩
      rw [hexec] at hret
      cases hret
      exact hpack

/-- A swallowed computation leaves the state that the computation leaves. -/
theorem exec_swallow_world {answer : Comp World Str} (c : Call World) :
    ((swallow answer).exec c).2.world = (answer.exec c.world).2 := by
  rcases h : answer.exec c.world with ⟨e | result, w⟩
  · cases e with
    | std what => rw [exec_swallow_std h]
    | other => rw [exec_swallow_other h]
  · rw [exec_swallow_ok h]

/-! ## The dispatch -/

/-- What `operator()` does up to the write, once the body has a parser. -/
theorem exec_run_nonMember {func : Function traits World} {body : Str} {parser : ep.Unpack}
    (hparser : ep.unpack body = .ok parser) (c : Call World) :
    ((Handler.nonMember func).entry.run body).exec c
      = (swallow (func.request parser)).exec { c with result := [] } := by
  have hreset : (setResult []).exec c = (.ok (), { c with result := [] }) := rfl
  rw [← Invoker.apply_eq]
  show (fromExcept (ep.unpack body) >>= fun parser =>
    setResult [] >>= fun _ => Invoker.apply func parser).exec c = _
  rw [hparser, fromExcept_ok_bind, exec_bind_ok hreset]

/-- Dispatch through `apply_member` is dispatch through `apply`, whatever the body. -/
theorem run_member (func : MemberFunction traits Self World) (self : Self) (body : Str) :
    (Handler.member func self).entry.run body = (Handler.nonMember (func.of self)).entry.run body :=
  rfl

/-- Values begin with one tuple of arguments at most. -/
theorem Yields.unique {vs : List ((t : ep.Ty) × ep.Val t)} {args args' : Args traits}
    (h : Yields vs args) (h' : Yields vs args') : args = args' := by
  funext i
  have heq : argAt args i = argAt args' i := Option.some.inj ((h i).symm.trans (h' i))
  exact eq_of_heq (Sigma.mk.inj heq).2

/-- The request of a handler on a body that packs the values: the handler's answer, or a
    `std::exception` from the unpacking. -/
theorem request_of_packs (func : Function traits World) {parser : ep.Unpack}
    {vs : List ((t : ep.Ty) × ep.Val t)} (hpacks : Packs ep parser vs) :
    (∃ args : Args traits, Yields vs args ∧ func.request parser = func.answer args)
    ∨ ((∃ what, func.request parser = fromExcept (.error (.std what)))
      ∧ ∀ args : Args traits, ¬ Yields vs args) := by
  rcases unpackArgs_of_packs traits.arity 0 (Nat.zero_add _) emptyTuple parser vs hpacks with
    ⟨args, hargs, hyields, -⟩ | ⟨⟨what, hthrow⟩, hnone⟩
  · refine Or.inl ⟨args, yieldsFrom_zero.mp hyields, ?_⟩
    rw [Function.request, hargs, fromExcept_ok_bind]
  · refine Or.inr ⟨⟨what, ?_⟩, ?_⟩
    · rw [Function.request, hthrow]
      rfl
    · intro args hyields
      exact hnone args (yieldsFrom_zero.mpr hyields)

theorem dispatches_nonMember (func : Function traits World) {body : Str} {parser : ep.Unpack}
    {vs : List ((t : ep.Ty) × ep.Val t)} (hparser : ep.unpack body = .ok parser)
    (hpacks : Packs ep parser vs) :
    Dispatches func vs ((Handler.nonMember (Function.traced func)).entry.run body) := by
  constructor
  · intro args w before log hyields
    rcases request_of_packs (Function.traced func) hpacks with ⟨args', hyields', hreq⟩ | ⟨-, hnone⟩
    · obtain rfl := hyields'.unique hyields
      simp only [exec_run_nonMember hparser, hreq]
      have htraced := exec_traced_answer func args' w
      constructor
      · rw [exec_swallow_world]
        show (((Function.traced func).answer args').exec ⟨w, []⟩).2.calls = [args']
        rw [htraced]
      · intro result hresult
        rw [answer_of_returnsPacked hresult] at htraced
        let c : Call (Traced traits World) := ⟨⟨w, []⟩, [], log⟩
        have hleft := exec_swallow_ok (c := c) htraced
        show ((swallow ((Function.traced func).answer args')).exec c).2.result = result
        rw [hleft]
    · exact absurd hyields (hnone args)
  · intro w before log hno
    rcases request_of_packs (Function.traced func) hpacks with
      ⟨args, hyields, -⟩ | ⟨⟨what, hreq⟩, -⟩
    · exact absurd hyields (hno args)
    · simp only [exec_run_nonMember hparser, hreq]
      let c : Call (Traced traits World) := ⟨⟨w, []⟩, [], log⟩
      have hthrow : (fromExcept (.error (.std what)) : Comp (Traced traits World) Str).exec c.world
          = (.error (.std what), c.world) := rfl
      have hleft := exec_swallow_std hthrow
      show ((swallow (fromExcept (.error (.std what)))).exec c).2.world.calls = []
        ∧ ((swallow (fromExcept (.error (.std what)))).exec c).2.result = []
      rw [hleft]
      exact ⟨rfl, rfl⟩

/-- **ARGUMENT DISPATCH**: on a body that packs the values, both bind forms of a handler call it
    once with the arguments that the values begin with and leave its packed return value, or
    never call it and leave the empty result; and on every body the two forms do the same. -/
theorem arguments_dispatched (func : Function traits World) {body : Str} {parser : ep.Unpack}
    {vs : List ((t : ep.Ty) × ep.Val t)} (hparser : ep.unpack body = .ok parser)
    (hpacks : Packs ep parser vs) :
    Dispatches func vs ((Handler.nonMember (Function.traced func)).entry.run body)
    ∧ ∀ (Self : Type) (member : MemberFunction traits Self (Traced traits World)) (self : Self),
        member.of self = Function.traced func →
        Dispatches func vs ((Handler.member member self).entry.run body)
        ∧ ∀ other : Str, (Handler.member member self).entry.run other
            = (Handler.nonMember (Function.traced func)).entry.run other := by
  have hfree := dispatches_nonMember func hparser hpacks
  refine ⟨hfree, ?_⟩
  intro Self member self hmember
  have hsame : ∀ other : Str, (Handler.member member self).entry.run other
      = (Handler.nonMember (Function.traced func)).entry.run other := by
    intro other
    rw [run_member, hmember]
  refine ⟨?_, hsame⟩
  rw [hsame]
  exact hfree

/-- The packer of bytes packs as the dispatch expects. -/
theorem bytePack_packs (bytes : List UInt8) :
    Packs bytePack bytes (bytes.map fun byte => ⟨(), byte⟩) := by
  induction bytes with
  | nil => exact fun _ => ⟨_, rfl⟩
  | cons byte bytes ih =>
      refine ⟨⟨bytes, rfl, ih⟩, ?_⟩
      intro t ht
      exact absurd rfl ht

/-- A function of two arguments whose order matters. -/
def difference : Function (⟨2, fun _ => ()⟩ : FunctionTraits bytePack) Unit :=
  .value () fun tp => pure (UInt8.sub (tp ⟨0, Nat.two_pos⟩) (tp ⟨1, Nat.one_lt_two⟩))

/-- The arguments 9 and 7. -/
def nineAndSeven : Args (⟨2, fun _ => ()⟩ : FunctionTraits bytePack) :=
  fun i => if i.val = 0 then (9 : UInt8) else (7 : UInt8)

/-- Three bytes packed for a function of two: it is called with the first two, in their order, and
    its result is their difference; with one byte it is not called. -/
theorem arguments_dispatched_difference :
    (((Handler.nonMember (Function.traced difference)).entry.run [9, 7, 5]).exec
        ⟨⟨(), []⟩, [], []⟩).2.world.calls = [nineAndSeven]
    ∧ (((Handler.nonMember (Function.traced difference)).entry.run [9, 7, 5]).exec
        ⟨⟨(), []⟩, [], []⟩).2.result = [2]
    ∧ (((Handler.nonMember (Function.traced difference)).entry.run [9]).exec
        ⟨⟨(), []⟩, [], []⟩).2.world.calls = [] := by
  have hunpack : ∀ body : Str, bytePack.unpack body = .ok body := fun _ => rfl
  have hthree := (arguments_dispatched difference (hunpack [9, 7, 5]) (bytePack_packs [9, 7, 5])).1
  have hone := (arguments_dispatched difference (hunpack [9]) (bytePack_packs [9])).1
  have hyields : Yields (([9, 7, 5] : List UInt8).map fun byte =>
      (⟨(), byte⟩ : (t : bytePack.Ty) × bytePack.Val t)) nineAndSeven := by
    rintro ⟨i, hi⟩
    obtain rfl | rfl := Nat.le_one_iff_eq_zero_or_eq_one.mp (Nat.le_of_lt_succ hi) <;> rfl
  obtain ⟨hcalls, hresult⟩ := hthree.called nineAndSeven () [] [] hyields
  refine ⟨hcalls, hresult [2] ⟨(2 : UInt8), rfl, rfl⟩, (hone.notCalled () [] [] ?_).1⟩
  intro args hno
  cases hno ⟨1, Nat.one_lt_two⟩

end EasyRpcArgumentDispatch
