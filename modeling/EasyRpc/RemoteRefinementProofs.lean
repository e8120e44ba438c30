import EasyRpc.AtMostOnceProofs
import EasyRpc.RemoteAnswerProofs

/-! # The network refines the at-most-once service

    Frames, connections, threads and the queue are how the calls are carried out.  Seen from their
    callers, every run of the network is a run of the abstract service `AtMostOnce`: a call is
    invoked, its handler may run once, and it ends once, with the answer of its own run or with a
    failure (`refines_at_most_once`).  This is so for requests whose lengths fit their header
    words, and as long as every header is still there when it is sent. -/

namespace EasyRpcRemoteCall

open Transition ThreadTable Throwing ByteStream EasyRpcWire EasyRpcConnection EasyRpcDispatch
open EasyRpcThreadPool EasyRpcRoundTrip EasyRpcServer AtMostOnce

variable {ep : Easypack} {World : Type}

/-- What is asked for. -/
structure Request where
  protocol : Str
  mode : CallMode
  body : Str

/-- What the bindings make of a request, and what its caller is handed. -/
def boundService (b : Bindings ep World) :
    Service Request (Call World) (Except Exn Str) (List UInt8) where
  serve request found :=
    (b.find request.mode request.protocol).map fun entry => entry.outcome request.body found
  answer
    | .ok result => handedOver result .kept
    | .error _ => none

/-- What a caller knows at each stage of his call. -/
def Stage.status : Stage → Status (List UInt8)
  | .returned body => .returned body
  | .failed _ => .failed
  | _ => .waiting

/-- What the callers see. -/
def Network.calls (net : Network ep World) :
    Calls Nat Request (Except Exn Str) (List UInt8) := fun k =>
  net.callers[k]?.map fun c =>
    ⟨⟨c.protocol, c.mode, c.body⟩, (net.runsOf k).head?.map Run.outcome, c.stage.status⟩

/-- A call whose lengths do not fit is not made, and nothing comes over a header before it is
    sent. -/
def fitting : Act ep World → Bool
  | .connect protocol _ body => protocol.length + body.length < 2 ^ 32
  | .write _ remains _ => remains.isKept
  | .respond _ remains _ => remains.isKept
  | _ => true

/-- The call fits, and the headers of its request and of its response have lasted. -/
structure Intact (c : Caller) : Prop where
  fits : Fits c
  requestHead : c.requestHead = .kept
  responseHead : c.responseHead = .kept

theorem Intact.truthful {c : Caller} (h : Intact c) : Truthful c := .of_kept h.fits h.requestHead

/-- The network, for calls that fit and headers that last. -/
def fittingSystem (b : Bindings ep World) : System (Network ep World) (Act ep World) where
  start := (remoteSystem b).start
  step net a := if fitting a then net.step b a else none

/-! ## What a step changes for the callers -/

section Steps

variable {b : Bindings ep World} {net net' : Network ep World}

theorem calls_of_caller {k : Nat} {c : Caller} (hc : net.callers[k]? = some c) :
    net.calls k = some ⟨⟨c.protocol, c.mode, c.body⟩, (net.runsOf k).head?.map Run.outcome,
      c.stage.status⟩ := by
  rw [Network.calls, hc]
  rfl

/-- A step of one call. -/
theorem calls_set {k : Nat} {c c' : Caller} (hc : net.callers[k]? = some c)
    (hcallers : net'.callers = net.callers.set k c') (hruns : ∀ j, net'.runsOf j = net.runsOf j)
    (hp : c'.protocol = c.protocol) (hm : c'.mode = c.mode) (hb : c'.body = c.body) :
    net'.calls = Function.update net.calls k (some ⟨⟨c.protocol, c.mode, c.body⟩,
      (net.runsOf k).head?.map Run.outcome, c'.stage.status⟩) := by
  funext j
  rw [Network.calls, hcallers, hruns]
  by_cases hj : j = k
  · subst hj
    rw [Function.update_self, getElem?_set_moved hc, ← hp, ← hm, ← hb]
    rfl
  · rw [Function.update_of_ne hj, List.getElem?_set_ne (Ne.symm hj)]
    rfl

/-- A step that the call does not notice. -/
theorem calls_same {k : Nat} {c c' : Caller} (hc : net.callers[k]? = some c)
    (hcallers : net'.callers = net.callers.set k c') (hruns : ∀ j, net'.runsOf j = net.runsOf j)
    (hp : c'.protocol = c.protocol) (hm : c'.mode = c.mode) (hb : c'.body = c.body)
    (hstatus : c'.stage.status = c.stage.status) : net'.calls = net.calls := by
  rw [calls_set hc hcallers hruns hp hm hb, hstatus, ← calls_of_caller hc]
  exact Function.update_eq_self _ _

/-- What every step of a call has in common: the call was waiting, and asks for the same. -/
structure Waits (c c' : Caller) : Prop where
  protocol : c'.protocol = c.protocol
  mode : c'.mode = c.mode
  body : c'.body = c.body
  responseHead : c'.responseHead = c.responseHead
  waiting : c.stage.status = .waiting

theorem write_waits {c c' : Caller} {remains : Remains requestHeaderLen}
    {ec : Option (String × Nat)} (hs : c.write remains ec = some c') : Waits c c' := by
  unfold Caller.write at hs
  split at hs
  · rename_i hstage
    split at hs <;>
      (cases hs
       exact ⟨rfl, rfl, rfl, rfl, by rw [hstage]; rfl⟩)
  · cases hs

theorem readHead_waits {c c' : Caller} {ec : Option String} (hs : c.readHead ec = some c') :
    Waits c c' := by
  unfold Caller.readHead at hs
  split at hs
  · rename_i hstage
    cases hs
    exact ⟨rfl, rfl, rfl, rfl, by rw [hstage]; rfl⟩
  · rename_i hstage
    split at hs
    · cases hs
    · split at hs <;>
        (cases hs
         exact ⟨rfl, rfl, rfl, rfl, by rw [hstage]; rfl⟩)
  · cases hs

/-- The read of the body ends it with the bytes, or lets it fail. -/
theorem readBody_waits {c c' : Caller} {ec : Option String} (hs : c.readBody ec = some c') :
    Waits c c' := by
  unfold Caller.readBody at hs
  split at hs
  · rename_i hstage
    cases hs
    exact ⟨rfl, rfl, rfl, rfl, by rw [hstage]; rfl⟩
  · rename_i hstage
    split at hs
    · cases hs
    · cases hs
      exact ⟨rfl, rfl, rfl, rfl, by rw [hstage]; rfl⟩
  · cases hs

/-- A step of a call leaves it intact if the header of its request lasts. -/
theorem Intact.waits {c c' : Caller} (h : Intact c) (hwaits : Waits c c')
    (hhead : c'.requestHead = .kept) : Intact c' := by
  refine ⟨?_, hhead, hwaits.responseHead.trans h.responseHead⟩
  rw [Fits, hwaits.protocol, hwaits.body]
  exact h.fits

/-- A header that is kept when it is sent stays so. -/
theorem write_requestHead {c c' : Caller} {ec : Option (String × Nat)}
    (hs : c.write .kept ec = some c') (h : c.requestHead = .kept) : c'.requestHead = .kept := by
  unfold Caller.write at hs
  split at hs
  · split at hs <;>
      (cases hs
       first | exact h | rfl)
  · cases hs

theorem readHead_requestHead {c c' : Caller} {ec : Option String}
    (hs : c.readHead ec = some c') : c'.requestHead = c.requestHead := by
  unfold Caller.readHead at hs
  split at hs
  · cases hs
    rfl
  · split at hs
    · cases hs
    · split at hs <;>
        (cases hs
         rfl)
  · cases hs

theorem readBody_requestHead {c c' : Caller} {ec : Option String}
    (hs : c.readBody ec = some c') : c'.requestHead = c.requestHead := by
  unfold Caller.readBody at hs
  split at hs
  · cases hs
    rfl
  · split at hs
    · cases hs
    · cases hs
      rfl
  · cases hs

/-- **A STEP OF A CALL** goes unnoticed, or it is the call's failure or its reply. -/
theorem caller_simulates {k : Nat} {c c' : Caller} (hc : net.callers[k]? = some c)
    (hwaits : Waits c c') (hhead : c.responseHead = .kept)
    (hI' : NetInv b { net with callers := net.callers.set k c' })
    (hserver : ServerInv b net.server) :
    Network.calls { net with callers := net.callers.set k c' } = net.calls
    ∨ ∃ act, AtMostOnce.step (boundService b) net.calls act
        = some (Network.calls { net with callers := net.callers.set k c' }) := by
  obtain ⟨hp, hm, hb, hsame, hwaiting⟩ := hwaits
  have hset : Network.calls { net with callers := net.callers.set k c' } = _ :=
    calls_set hc rfl (fun _ => rfl) hp hm hb
  cases hstage : c'.stage with
  | write | readHead | readBody resHead =>
      exact Or.inl (calls_same hc rfl (fun _ => rfl) hp hm hb (by rw [hstage, hwaiting]; rfl))
  | failed what =>
      refine Or.inr ⟨.fail k, ?_⟩
      rw [hset, hstage]
      simp only [AtMostOnce.step, calls_of_caller hc, hwaiting]
      rfl
  | returned ret =>
      obtain ⟨run, result, hruns, houtcome, hover, -⟩ :=
        hI'.returned hserver (getElem?_set_moved hc) hstage
      rw [hsame, hhead] at hover
      replace hruns : net.runsOf k = [run] := hruns
      refine Or.inr ⟨.reply k, ?_⟩
      rw [hset, hstage]
      simp only [AtMostOnce.step, calls_of_caller hc, hwaiting, hruns, List.head?_cons,
        Option.map_some, houtcome, boundService, hover]
      rfl

/-- **A CONNECT IS AN INVOCATION**. -/
theorem connect_simulates (hI : NetInv b net) (protocol : Str) (mode : CallMode) (body : Str) :
    AtMostOnce.step (boundService b) net.calls
        (.invoke net.callers.length ⟨protocol, mode, body⟩)
      = some (Network.calls { net with
          callers := net.callers ++ [.connect protocol mode body] }) := by
  have hfree : net.calls net.callers.length = none := by
    rw [Network.calls, List.getElem?_eq_none (Nat.le_refl _)]
    rfl
  simp only [AtMostOnce.step, hfree]
  refine congrArg some (funext fun k => ?_)
  by_cases hk : k = net.callers.length
  · subst hk
    have hnone : net.runsOf net.callers.length = [] := by
      refine List.eq_nil_iff_forall_not_mem.mpr fun run hmem => ?_
      have hknown := hI.known _ (List.mem_of_getElem? (mem_runsOf.mp hmem).2)
      exact absurd hknown (Nat.lt_irrefl _)
    have hnew : (net.callers ++ [Caller.connect protocol mode body])[net.callers.length]?
        = some (.connect protocol mode body) := by
      rw [List.getElem?_append_right (Nat.le_refl _), Nat.sub_self]
      rfl
    have hruns : Network.runsOf { net with
        callers := net.callers ++ [.connect protocol mode body] } net.callers.length = [] := hnone
    rw [Function.update_self, Network.calls, hnew, hruns]
    rfl
  · rw [Function.update_of_ne hk, Network.calls, Network.calls]
    rcases Nat.lt_or_ge k net.callers.length with hlt | hge
    · rw [List.getElem?_append_left hlt]
      rfl
    · have hbeyond : (net.callers ++ [Caller.connect protocol mode body]).length ≤ k := by
        rw [List.length_append]
        exact Nat.lt_of_le_of_ne hge (Ne.symm hk)
      rw [List.getElem?_eq_none hge, List.getElem?_eq_none hbeyond]
      rfl

/-- An accepted call has had no runs. -/
theorem runsOf_accept (hI : NetInv b net) (hserver : ServerInv b net.server)
    {s : Server ep World} (k j : Nat) :
    Network.runsOf { net with server := s, accepted := net.accepted ++ [k] } j = net.runsOf j := by
  refine List.filter_congr fun run hmem => ?_
  obtain ⟨k', -, hk', -⟩ := hI.run_asked hserver hmem
  rw [List.getElem?_append_left (List.getElem?_eq_some_iff.mp hk').1]

/-- An accept changes nothing for the callers. -/
theorem accept_unnoticed (hI : NetInv b net) (hserver : ServerInv b net.server)
    {s : Server ep World} (k : Nat) :
    Network.calls { net with server := s, accepted := net.accepted ++ [k] } = net.calls := by
  funext j
  rw [Network.calls, runsOf_accept hI hserver k j]
  rfl

/-- A run counts for the call of its connection. -/
theorem runsOf_append (s : Server ep World) (run : Run ep World) (k : Nat) :
    Network.runsOf { net with server := s, runs := net.runs ++ [run] } k
      = if net.accepted[run.conn]? = some k then net.runsOf k ++ [run] else net.runsOf k := by
  have hnew : [run].filter (fun run => net.accepted[run.conn]? == some k)
      = if net.accepted[run.conn]? = some k then [run] else [] := by
    by_cases hk : net.accepted[run.conn]? = some k
    · rw [if_pos hk]
      exact List.filter_cons_of_pos (beq_iff_eq.mpr hk)
    · rw [if_neg hk]
      exact List.filter_cons_of_neg (mt beq_iff_eq.mp hk)
  show (net.runs ++ [run]).filter (fun run => net.accepted[run.conn]? == some k) = _
  rw [List.filter_append, hnew]
  split
  · rfl
  · exact List.append_nil _

/-- A run of a handler executes its call. -/
theorem run_simulates {s : Server ep World} {run : Run ep World}
    (hI' : NetInv b { net with server := s, runs := net.runs ++ [run] })
    (hserver' : ServerInv b s) (hintact : ∀ (k : Nat) c, net.callers[k]? = some c → Intact c) :
    ∃ act, AtMostOnce.step (boundService b) net.calls act
      = some (Network.calls { net with server := s, runs := net.runs ++ [run] }) := by
  have hmem : run ∈ net.runs ++ [run] := List.mem_append_right _ List.mem_cons_self
  obtain ⟨k, c, hk, hc, hasked⟩ := hI'.run_asked hserver' hmem
  replace hc : net.callers[k]? = some c := hc
  replace hk : net.accepted[run.conn]? = some k := hk
  have hserve := hasked (hintact k c hc).truthful
  -- the call had no run before
  have hnone : net.runsOf k = [] := by
    have hle := hI'.length_runsOf hserver' k
    rw [runsOf_append s run k, if_pos hk, List.length_append, List.length_singleton] at hle
    exact List.length_eq_zero_iff.mp (Nat.eq_zero_of_le_zero (Nat.le_of_succ_le_succ hle))
  refine ⟨.execute k run.call, ?_⟩
  simp only [AtMostOnce.step, calls_of_caller hc, hnone, List.head?_nil, Option.map_none,
    boundService, hserve.entry, Option.map_some]
  refine congrArg some (funext fun j => ?_)
  by_cases hj : j = k
  · subst hj
    have houtcome : run.outcome = run.entry.outcome c.body run.call := by
      rw [← hserve.body]
      rfl
    rw [Function.update_self, Network.calls, runsOf_append s run j, if_pos hk, hnone, hc,
      ← houtcome]
    rfl
  · have hother : net.accepted[run.conn]? ≠ some j := by
      rw [hk]
      exact fun heq => hj (Option.some.inj heq).symm
    rw [Function.update_of_ne hj, Network.calls, Network.calls, runsOf_append s run j,
      if_neg hother]

/-- **STEP SIMULATION**. -/
theorem step_simulates (hI : NetInv b net) (hserver : ServerInv b net.server)
    (hI' : NetInv b net') (hserver' : ServerInv b net'.server)
    (hintact : ∀ (k : Nat) c, net.callers[k]? = some c → Intact c) {a : Act ep World}
    (hs : Step b net a net') :
    net'.calls = net.calls
    ∨ ∃ act, AtMostOnce.step (boundService b) net.calls act = some net'.calls := by
  cases hs with
  | connects protocol mode body => exact Or.inr ⟨_, connect_simulates hI protocol mode body⟩
  | writes hc hmove =>
      exact caller_simulates hc (write_waits hmove) (hintact _ _ hc).responseHead hI' hserver
  | readsHead hc hmove =>
      exact caller_simulates hc (readHead_waits hmove) (hintact _ _ hc).responseHead hI' hserver
  | readsBody hc hmove =>
      exact caller_simulates hc (readBody_waits hmove) (hintact _ _ hc).responseHead hI' hserver
  | @accepts k io timeoutMilli hk hnot hio => exact Or.inl (accept_unnoticed hI hserver k)
  | headReads hk hc => exact Or.inl (calls_same hc rfl (fun _ => rfl) rfl rfl rfl rfl)
  | bodyReads hk hc => exact Or.inl (calls_same hc rfl (fun _ => rfl) rfl rfl rfl rfl)
  | runs hrun hnew => exact Or.inr (run_simulates hI' hserver' hintact)
  | responds hrun hk hc => exact Or.inl (calls_same hc rfl (fun _ => rfl) rfl rfl rfl rfl)
  | server hint heffect => exact Or.inl rfl

/-- The calls of the network stay intact. -/
theorem intact_step (hintact : ∀ (k : Nat) c, net.callers[k]? = some c → Intact c)
    {a : Act ep World} (ha : fitting a = true) (hs : Step b net a net') :
    ∀ (k : Nat) c, net'.callers[k]? = some c → Intact c := by
  have hset : ∀ {k : Nat} {c c' : Caller}, net.callers[k]? = some c → (Intact c → Intact c') →
      ∀ (j : Nat) x, (net.callers.set k c')[j]? = some x → Intact x := by
    intro k c c' hc hstep j x hx
    rcases getElem?_set_some hx with ⟨-, rfl⟩ | ⟨-, hold⟩
    · exact hstep (hintact k c hc)
    · exact hintact j x hold
  cases hs with
  | connects protocol mode body =>
      intro k c hc
      rcases Nat.lt_or_ge k net.callers.length with hlt | hge
      · exact hintact k c ((List.getElem?_append_left hlt).symm.trans hc)
      · have hmem := List.mem_of_getElem? (List.getElem?_append_right hge ▸ hc)
        rw [List.mem_singleton] at hmem
        subst hmem
        have hfits : protocol.length + body.length < 2 ^ 32 := of_decide_eq_true ha
        exact ⟨hfits, rfl, rfl⟩
  | @writes k remains ec c c' hc hmove =>
      cases Remains.eq_kept ha
      exact hset hc fun h => h.waits (write_waits hmove) (write_requestHead hmove h.requestHead)
  | readsHead hc hmove =>
      exact hset hc fun h =>
        h.waits (readHead_waits hmove) ((readHead_requestHead hmove).trans h.requestHead)
  | readsBody hc hmove =>
      exact hset hc fun h =>
        h.waits (readBody_waits hmove) ((readBody_requestHead hmove).trans h.requestHead)
  | accepts | runs | server => exact hintact
  | headReads hk hc | bodyReads hk hc =>
      exact hset hc fun h => ⟨h.fits, h.requestHead, h.responseHead⟩
  | responds hrun hk hc =>
      cases Remains.eq_kept ha
      exact hset hc fun h => ⟨h.fits, h.requestHead, rfl⟩

end Steps

/-! ## Runs -/

/-- What the simulation of a step rests on. -/
structure Sound (b : Bindings ep World) (net : Network ep World) : Prop where
  inv : NetInv b net
  server : ServerInv b net.server
  intact : ∀ (k : Nat) c, net.callers[k]? = some c → Intact c

section Runs

variable {b : Bindings ep World} {net net' : Network ep World}

theorem Sound.step (h : Sound b net) {a : Act ep World}
    (hs : (fittingSystem b).step net a = some net') : Sound b net' := by
  obtain ⟨ha, hs⟩ := Option.ite_none_right_eq_some.mp hs
  have hserver : ServerInv b net'.server := by
    rcases server_step hs with heq | ⟨act, hact⟩
    · rw [heq]
      exact h.server
    · exact h.server.step hact
  exact ⟨h.inv.step h.server (step_cases hs), hserver, intact_step h.intact ha (step_cases hs)⟩

/-- Every reachable network of fitting calls is sound. -/
theorem sound_of_reachable (h : Reachable (fittingSystem b) net) : Sound b net := by
  refine h.invariant ?_ fun net a net' hI _ hs => hI.step hs
  rintro net ⟨s, hs, rfl⟩
  exact ⟨netInv_of_reaches (Reachable.start ⟨s, hs, rfl⟩),
    serverInv_of_reachable (Reachable.start hs), nofun⟩

/-- **THE SIMULATION**: each step of the network is no step of the service, or one. -/
theorem Sound.simulates (h : Sound b net) {a : Act ep World}
    (hs : (fittingSystem b).step net a = some net') :
    net'.calls = net.calls
    ∨ ∃ act, (serviceSystem (boundService b)).step net.calls act = some net'.calls := by
  have h' := h.step hs
  obtain ⟨-, hs⟩ := Option.ite_none_right_eq_some.mp hs
  exact step_simulates h.inv h.server h'.inv h'.server h.intact (step_cases hs)

/-- The calls of a reachable network are reachable calls of the service. -/
theorem calls_of_reachable (h : Reachable (fittingSystem b) net) :
    Reachable (serviceSystem (boundService b)) net.calls := by
  refine h.simulation (J := Sound b) Network.calls (fun _ => sound_of_reachable) ?_ ?_
  · rintro net ⟨s, -, rfl⟩
    rfl
  · exact fun net a net' hI _ hs => hI.simulates hs

/-- What the network goes on to do is what the service goes on to do. -/
theorem Sound.leads (h : Sound b net) (hl : Leads (fittingSystem b) net net') :
    Leads (serviceSystem (boundService b)) net.calls net'.calls :=
  hl.simulation_of (J := Sound b) Network.calls (fun _ _ _ hI hs => hI.step hs)
    (fun _ _ _ hI hs => hI.simulates hs) h

/-- **THE NETWORK REFINES THE SERVICE**: what the callers see of a run is a run of the
    at-most-once service, so an outcome comes from an execution of the call's own request and a
    return from the call's own outcome; and whatever the network goes on to do, a call that has
    been executed keeps its outcome, and one that has ended stays as it ended.  The run is one of
    calls that fit and of headers that last. -/
theorem refines_at_most_once (h : Reachable (fittingSystem b) net) :
    Reachable (serviceSystem (boundService b)) net.calls
    ∧ (∀ k c, net.calls k = some c → Served (boundService b) c)
    ∧ ∀ net', Leads (fittingSystem b) net net' →
        Leads (serviceSystem (boundService b)) net.calls net'.calls
        ∧ ∀ k c, net.calls k = some c → ∃ c', net'.calls k = some c' ∧ Later c c' := by
  have hcalls := calls_of_reachable h
  refine ⟨hcalls, fun k c hc => served_of_reachable hcalls hc, ?_⟩
  intro net' hl
  have hlead := (sound_of_reachable h).leads hl
  exact ⟨hlead, fun k c hc => later_of_leads hlead hc⟩

end Runs

/-- A call is executed while it waits, and has returned at the end. -/
theorem refines_at_most_once_echo : ∃ net net' : Network bytePack Unit,
    net.callers.map Caller.stage = [.readHead] ∧ net'.callers.map Caller.stage = [.returned [7]]
    ∧ Reachable (serviceSystem (boundService echoBindings)) net.calls
    ∧ Leads (serviceSystem (boundService echoBindings)) net.calls net'.calls := by
  have hstart : (fittingSystem echoBindings).start ⟨⟨.initial 1 1, [], []⟩, [], [], []⟩ :=
    ⟨_, ⟨1, 1, rfl⟩, rfl⟩
  have hfirst : exec (fittingSystem echoBindings) ⟨⟨.initial 1 1, [], []⟩, [], [], []⟩
      (oneCall.take 13) = some _ := rfl
  have hreach := (Reachable.start hstart).exec hfirst
  have hrefines := refines_at_most_once hreach
  exact ⟨_, _, rfl, rfl, hrefines.1, (hrefines.2.2 _ ⟨oneCall.drop 13, rfl⟩).1⟩

end EasyRpcRemoteCall
