import EasyRpc.RemoteProgressProofs

/-! # Failed calls — a call fails for a reason of its own

    Errors, deadlines, refusals and overwritten headers on other connections are no business of a
    call.  Where nothing of the kind is inflicted on the call itself or on its connection
    (`spares`), it fails only if its request is out of bounds or not bound, or if its handler came
    to nothing it could be handed (`Excused`).  As every such call comes to an end, this decides
    how it ends (`spared_call_returns`). -/

namespace EasyRpcRemoteFailure

open Transition ThreadTable Throwing Potential ByteStream EasyRpcAtimer EasyRpcWire
open EasyRpcConnection EasyRpcDispatch EasyRpcThreadPool EasyRpcTaskCustody EasyRpcRoundTrip
open EasyRpcServer EasyRpcServerProgress EasyRpcRemoteCall EasyRpcRemoteProgress

variable {ep : Easypack} {World : Type}

/-- What a call, and the runs of its handler, have to do with its failure. -/
inductive Excused (b : Bindings ep World) (c : Caller) (runs : List (Run ep World)) : Prop where
  | size (h : ¬ (0 < c.protocol.length + c.body.length
      ∧ c.protocol.length + c.body.length < 8388608))
  | unbound (h : b.find c.mode c.protocol = none)
  | unanswered {run : Run ep World} (hmem : run ∈ runs)
      (h : ∀ result, run.outcome = .ok result → handedOver result .kept = none)

/-- An excuse stays one while the request is the same and runs are only added. -/
theorem Excused.same {b : Bindings ep World} {c c' : Caller} {runs runs' : List (Run ep World)}
    (h : Excused b c runs) (hp : c'.protocol = c.protocol) (hm : c'.mode = c.mode)
    (hb : c'.body = c.body) (hruns : ∀ run ∈ runs, run ∈ runs') : Excused b c' runs' := by
  cases h with
  | size h => exact .size (by rwa [hp, hb])
  | unbound h => exact .unbound (by rwa [hm, hp])
  | unanswered hmem h => exact .unanswered (hruns _ hmem) h

/-- A request too long for its header words is out of bounds. -/
theorem Excused.of_unfit {b : Bindings ep World} {c : Caller} {runs : List (Run ep World)}
    (h : ¬ Fits c) : Excused b c runs := by
  refine .size fun hrange => h ?_
  rw [Fits]
  omega

/-- The action inflicts nothing on call `k` or on its connection: what fails there fails at a
    closed socket, and its headers are still there when they are sent. -/
def spares (k : Nat) (net : Network ep World) : EasyRpcRemoteCall.Act ep World → Bool
  | .write j remains ec => j != k || ec.isNone && remains.isKept
  | .readHead j ec => j != k || ec.isNone || endOfFile net k
  | .readBody j ec => j != k || ec.isNone || endOfFile net k
  | .respond i remains ec =>
      ec.isNone && remains.isKept || match net.server.pool.workers[i]? with
        | some (.run task) => net.accepted[task.conn]? != some k
        | _ => true
  | .server (.headRead n _) =>
      net.accepted[n]? != some k || net.server.conns[n]?.any fun a => !a.conn.isOpen
  | .server (.bodyRead n _) =>
      net.accepted[n]? != some k || net.server.conns[n]?.any fun a => !a.conn.isOpen
  | .server (.expire n) => net.accepted[n]? != some k
  | _ => true

/-! ## One connection -/

/-- The socket of the call is closed for a reason, its reads fail where it is closed, and no
    deadline has passed. -/
structure Upright (b : Bindings ep World) (runs : List (Run ep World)) (c : Caller)
    (conn : Connection) : Prop where
  closed : conn.isOpen = false →
    (∃ result, c.response.written = responseFrame result .kept) ∨ Excused b c runs
  error : conn.reading = .headDone true ∨ conn.reading = .bodyDone true → conn.isOpen = false
  calm : ∀ p ∈ conn.timer.ready, p.2 = true

section Conn

variable {b : Bindings ep World} {runs : List (Run ep World)} {c : Caller}
  {conn conn' : Connection}

/-- A cancelled wait is an aborted one. -/
theorem calm_cancel {t : Atimer Nat TimerFunc} (h : ∀ p ∈ t.ready, p.2 = true) :
    ∀ p ∈ t.cancel.ready, p.2 = true := by
  intro p hp
  rcases List.mem_append.mp hp with hold | hnew
  · exact h p hold
  · obtain ⟨w, -, rfl⟩ := List.mem_map.mp hnew
    rfl

theorem calm_stop (conn : Connection) (h : ∀ p ∈ conn.timer.ready, p.2 = true) :
    ∀ p ∈ conn.stopTimer.disconnect.timer.ready, p.2 = true := by
  rw [Connection.disconnect_timer, Connection.stopTimer]
  split
  · exact h
  · exact calm_cancel h

/-- A step that leaves the socket as it is. -/
theorem Upright.same_open (h : Upright b runs c conn) (hopen : conn'.isOpen = conn.isOpen)
    (herror : conn'.reading = .headDone true ∨ conn'.reading = .bodyDone true →
      conn.isOpen = false)
    (hcalm : ∀ p ∈ conn'.timer.ready, p.2 = true) : Upright b runs c conn' :=
  ⟨fun hclosed => h.closed (hopen.symm.trans hclosed), fun hr => hopen.trans (herror hr), hcalm⟩

/-- A step that closes it, for a reason. -/
theorem Upright.shuts
    (hwhy : (∃ result, c.response.written = responseFrame result .kept) ∨ Excused b c runs)
    (hclosed : conn'.isOpen = false) (hcalm : ∀ p ∈ conn'.timer.ready, p.2 = true) :
    Upright b runs c conn' :=
  ⟨fun _ => hwhy, fun _ => hclosed, hcalm⟩

/-- The header was refused: the socket was closed, or the request is out of bounds. -/
theorem Upright.head_refused {pool : ThreadPool (RequestTask ep World)}
    {allRuns : List (Run ep World)} {n : Nat} (h : Upright b runs c conn)
    (hlink : Link b pool allRuns n c conn) (hI : CallerInv c) (hkept : c.requestHead = .kept)
    {ec : Bool} (hr : conn.reading = .headDone ec)
    (hwhy : conn.isOpen = false ∨ ec = true ∨ (checkHead conn.head).2 = false) :
    (∃ result, c.response.written = responseFrame result .kept) ∨ Excused b c runs := by
  rcases hwhy with hclosed | rfl | hbad
  · exact h.closed hclosed
  · exact h.closed (h.error (Or.inl hr))
  · cases ec with
    | true => exact h.closed (h.error (Or.inl hr))
    | false =>
        have hbegins : conn.head.bytes ++ [] <+: c.requestFrame := by
          rw [List.append_nil, ← hlink.headed hr]
          exact c.request.taken_begins.trans hI.sent
        rw [(head_of_begins hbegins).1, Caller.wireHead, hkept] at hbad
        refine Or.inr (.size fun hrange => ?_)
        have hfits : Fits c := by
          rw [Fits]
          omega
        have hok := (checkHead_kept c.protocol c.mode c.body).mpr
          (by rwa [Nat.mod_eq_of_lt hfits])
        exact absurd (hbad.symm.trans hok) Bool.false_ne_true

/-- The body was refused: the socket was closed, or the request is not bound. -/
theorem Upright.body_refused {pool : ThreadPool (RequestTask ep World)}
    {allRuns : List (Run ep World)} {n : Nat} (h : Upright b runs c conn)
    (hlink : Link b pool allRuns n c conn) (hI : CallerInv c) (hkept : c.requestHead = .kept)
    {ec : Bool} (hr : conn.reading = .bodyDone ec)
    (hwhy : conn.isOpen = false ∨ ec = true
      ∨ ec = false ∧ ∃ protocol, protocolSlice conn.reqHead conn.protocolAndBody = some protocol
        ∧ b.find conn.reqHead.mode protocol = none) :
    (∃ result, c.response.written = responseFrame result .kept) ∨ Excused b c runs := by
  rcases hwhy with hclosed | rfl | ⟨rfl, protocol, hp, hf⟩
  · exact h.closed hclosed
  · exact h.closed (h.error (Or.inr hr))
  · by_cases hfits : Fits c
    · have htruthful : Truthful c := .of_kept hfits hkept
      obtain ⟨-, hreq, hbuffer⟩ := hlink.bodied_sent hI htruthful hr
      rw [hreq, hbuffer, (slices_of_lengths htruthful.head.protocolLen htruthful.head.bodyLen).1]
        at hp
      cases hp
      have hmode : (checkHead c.wireHead).1.mode = c.mode :=
        congrArg CallMode.mk htruthful.head.mode
      rw [hreq, hmode] at hf
      exact Or.inr (.unbound hf)
    · exact Or.inr (.of_unfit hfits)

end Conn

/-! ## One call in the network -/

/-- **THE INVARIANT** of call `k`. -/
structure Innocent (b : Bindings ep World) (k : Nat) (net : Network ep World) : Prop where
  heads : ∀ c, net.callers[k]? = some c → c.requestHead = .kept ∧ c.responseHead = .kept
  failed : ∀ c what, net.callers[k]? = some c → c.stage = .failed what →
    Excused b c (net.runsOf k)
  conn : ∀ (n : Nat) a c, net.server.conns[n]? = some a → net.accepted[n]? = some k →
    net.callers[k]? = some c → Upright b (net.runsOf k) c a.conn

section NetSteps

variable {b : Bindings ep World} {net net' : Network ep World} {k : Nat}

/-- The runs of a call depend on the accepted connections and the runs. -/
theorem runsOf_same (haccepted : net'.accepted = net.accepted) (hruns : net'.runs = net.runs) :
    net'.runsOf k = net.runsOf k := by
  rw [Network.runsOf, Network.runsOf, haccepted, hruns]

/-- A step at connection `n` and its call, which goes on where it was. -/
theorem Innocent.at_conn (h : Innocent b k net) (hI : NetInv b net) {n j : Nat} {c c' : Caller}
    {a : Accepted} {conn' : Connection} (ha : net.server.conns[n]? = some a)
    (hj : net.accepted[n]? = some j) (hc : net.callers[j]? = some c)
    (hconns : net'.server.conns = net.server.conns.set n ⟨conn', a.io⟩)
    (hcallers : net'.callers = net.callers.set j c') (haccepted : net'.accepted = net.accepted)
    (hruns : net'.runs = net.runs) (hstage : c'.stage = c.stage)
    (hp : c'.protocol = c.protocol) (hm : c'.mode = c.mode) (hb : c'.body = c.body)
    (hheads : j = k → c'.requestHead = c.requestHead
      ∧ (c.responseHead = .kept → c'.responseHead = .kept))
    (hup : j = k → Upright b (net.runsOf k) c a.conn → Upright b (net.runsOf k) c' conn') :
    Innocent b k net' := by
  have hsame := runsOf_same (k := k) haccepted hruns
  refine ⟨fun x hx => ?_, fun x what hx hfailed => ?_, fun m y x hy hm' hx => ?_⟩
  · rw [hcallers] at hx
    rcases getElem?_set_some hx with ⟨rfl, rfl⟩ | ⟨-, hold⟩
    · obtain ⟨hrequest, hresponse⟩ := hheads rfl
      exact ⟨hrequest.trans (h.heads c hc).1, hresponse (h.heads c hc).2⟩
    · exact h.heads x hold
  · rw [hsame]
    rw [hcallers] at hx
    rcases getElem?_set_some hx with ⟨rfl, rfl⟩ | ⟨-, hold⟩
    · exact (h.failed c what hc (hstage.symm.trans hfailed)).same hp hm hb fun _ hmem => hmem
    · exact h.failed x what hold hfailed
  · rw [hsame]
    rw [hconns] at hy
    rw [haccepted] at hm'
    rw [hcallers] at hx
    rcases getElem?_set_some hy with ⟨rfl, rfl⟩ | ⟨hne, hy⟩
    · cases hj.symm.trans hm'
      rw [getElem?_set_moved hc] at hx
      cases hx
      exact hup rfl (h.conn n a c ha hj hc)
    · rcases getElem?_set_some hx with ⟨rfl, -⟩ | ⟨-, hx⟩
      · exact absurd (hI.conn_unique hj hm') hne
      · exact h.conn m y x hy hm' hx

/-- A step of the connection alone. -/
theorem Innocent.conn_step (h : Innocent b k net) (hI : NetInv b net) {n : Nat} {a : Accepted}
    {conn' : Connection} {pool' : ThreadPool (RequestTask ep World)}
    (ha : net.server.conns[n]? = some a)
    (hup : ∀ c, net.accepted[n]? = some k → net.callers[k]? = some c →
      Upright b (net.runsOf k) c a.conn → Upright b (net.runsOf k) c conn') :
    Innocent b k { net with server := { net.server.setConn n a conn' with pool := pool' } } := by
  obtain ⟨hlt, -⟩ := List.getElem?_eq_some_iff.mp ha
  have hj := List.getElem?_eq_getElem (hI.length.symm ▸ hlt)
  have hc := List.getElem?_eq_getElem (hI.known _ (List.mem_of_getElem? hj))
  refine h.at_conn hI ha hj hc rfl (List.set_getElem_self _).symm rfl rfl rfl rfl rfl rfl
    (fun _ => ⟨rfl, id⟩) ?_
  rintro rfl
  exact hup _ hj hc

/-- A step of a call alone. -/
theorem Innocent.caller_step (h : Innocent b k net) {j : Nat} {c c' : Caller}
    (hc : net.callers[j]? = some c) (hwaits : Waits c c')
    (hresponse : c'.response.written = c.response.written)
    (hhead : j = k → c.requestHead = .kept → c'.requestHead = .kept)
    (hfailed : j = k → ∀ what, c'.stage = .failed what → Excused b c (net.runsOf k)) :
    Innocent b k { net with callers := net.callers.set j c' } := by
  have hsame : Excused b c (net.runsOf k) → Excused b c' (net.runsOf k) := fun hex =>
    hex.same hwaits.protocol hwaits.mode hwaits.body fun _ hmem => hmem
  refine ⟨fun x hx => ?_, fun x what hx hstage => ?_, fun n a x ha hn hx => ?_⟩
  · rcases getElem?_set_some hx with ⟨rfl, rfl⟩ | ⟨-, hold⟩
    · obtain ⟨hrequest, hkept⟩ := h.heads c hc
      exact ⟨hhead rfl hrequest, hwaits.responseHead.trans hkept⟩
    · exact h.heads x hold
  · rcases getElem?_set_some hx with ⟨rfl, rfl⟩ | ⟨-, hold⟩
    · exact hsame (hfailed rfl what hstage)
    · exact h.failed x what hold hstage
  · rcases getElem?_set_some hx with ⟨rfl, rfl⟩ | ⟨-, hold⟩
    · have hup := h.conn n a c ha hn hc
      refine ⟨fun hclosed => ?_, hup.error, hup.calm⟩
      rw [hresponse]
      exact (hup.closed hclosed).imp_right hsame
    · exact h.conn n a x ha hn hold

/-- More runs of handlers, and nothing else that the call could notice. -/
theorem Innocent.more_runs (h : Innocent b k net) (hconns : net'.server.conns = net.server.conns)
    (hcallers : net'.callers = net.callers) (haccepted : net'.accepted = net.accepted)
    (hruns : ∀ run ∈ net.runsOf k, run ∈ net'.runsOf k) : Innocent b k net' := by
  have hmore : ∀ c, Excused b c (net.runsOf k) → Excused b c (net'.runsOf k) :=
    fun c hex => hex.same rfl rfl rfl hruns
  refine ⟨fun c hc => h.heads c (hcallers ▸ hc), fun c what hc hstage => ?_,
    fun n a c ha hn hc => ?_⟩
  · rw [hcallers] at hc
    exact hmore c (h.failed c what hc hstage)
  · rw [hconns] at ha
    rw [haccepted] at hn
    rw [hcallers] at hc
    have hup := h.conn n a c ha hn hc
    exact ⟨fun hclosed => (hup.closed hclosed).imp_right (hmore c), hup.error, hup.calm⟩

/-! ## Steps of the server -/

/-- A read that fails where the call is spared finds its socket closed. -/
theorem closed_of_spares {n : Nat} {a : Accepted} (ha : net.server.conns[n]? = some a)
    (hk : net.accepted[n]? = some k)
    (h : (net.accepted[n]? != some k || net.server.conns[n]?.any fun a => !a.conn.isOpen) = true) :
    a.conn.isOpen = false := by
  rw [hk, bne_self_eq_false, Bool.false_or, ha, Option.any_some, Bool.not_eq_true'] at h
  exact h

/-- **A STEP OF THE SERVER KEEPS A SPARED CALL INNOCENT**: its connection is closed only with an
    excuse. -/
theorem Innocent.server (h : Innocent b k net) (hI : NetInv b net) (hT : Tended net)
    {a : EasyRpcServer.Act ep World} {s : Server ep World}
    (hspares : spares k net (.server a) = true) (hint : isInternal a = true)
    (hs : Effect b net.server a s) : Innocent b k { net with server := s } := by
  cases hs with
  | accepts | headReads | bodyReads | runs | ends => cases hint
  | headFails ha hr =>
      refine h.conn_step hI ha fun c hk hc hup => hup.same_open rfl (fun _ => ?_) hup.calm
      exact closed_of_spares ha hk hspares
  | headAccepted ha hr hopen hv =>
      exact h.conn_step hI ha fun c hk hc hup => hup.same_open rfl (by rintro (h | h) <;> cases h)
        hup.calm
  | headRefused ha hr hwhy =>
      refine h.conn_step hI ha fun c hk hc hup => ?_
      have hlink := hI.links _ _ _ _ ha hk hc
      exact .shuts (hup.head_refused hlink (hI.callers _ _ hc) (h.heads _ hc).1 hr hwhy)
        (Connection.disconnect_isOpen _) (calm_stop (Connection.setReqHead _ _) hup.calm)
  | bodyFails ha hr =>
      refine h.conn_step hI ha fun c hk hc hup => hup.same_open rfl (fun _ => ?_) hup.calm
      exact closed_of_spares ha hk hspares
  | bodyRefused ha hr hwhy =>
      refine h.conn_step hI ha fun c hk hc hup => ?_
      have hlink := hI.links _ _ _ _ ha hk hc
      exact .shuts (hup.body_refused hlink (hI.callers _ _ hc) (h.heads _ hc).1 hr hwhy)
        (Connection.disconnect_isOpen _) (calm_stop _ hup.calm)
  | @routes n a protocol body entry p ha hr hopen hp hb hf hadd =>
      refine h.conn_step hI ha fun c hk hc hup =>
        hup.same_open (Connection.stopTimer_isOpen _) (by rintro (h | h) <;> cases h) ?_
      exact a.conn.stopTimer.disconnect_timer ▸ calm_stop _ hup.calm
  | returns ha hr hidle =>
      exact h.conn_step hI ha fun c hk hc hup =>
        hup.same_open rfl (by rintro (h | h) <;> cases h) hup.calm
  | expires ha hwaiting =>
      refine h.conn_step hI ha fun c hk hc hup => ?_
      rw [spares, hk, bne_self_eq_false] at hspares
      cases hspares
  | handles ha hready hkeeps hr hopen hcalm =>
      refine h.conn_step hI ha fun c hk hc hup => ?_
      obtain ⟨hsame, hstill⟩ := hcalm hup.calm
      exact hup.same_open hsame (by rw [hr]; exact hup.error) hstill
  | @destructs n a ha hr hfuncs hnone =>
      refine h.conn_step hI ha fun c hk hc hup => ?_
      refine .shuts ?_ (Connection.disconnect_isOpen _) ?_
      · rcases hT.attended n a k c ha hk hc (Or.inl hr) with hclosed | hheld | hwhole
        · exact hup.closed hclosed
        · exact absurd hnone (Nat.ne_of_gt hheld)
        · exact Or.inl ((h.heads c hc).2 ▸ hwhole)
      · exact calm_cancel (calm_stop _ hup.calm)
  | @pool a p hint' hp => exact h.more_runs rfl rfl rfl fun _ hmem => hmem

/-! ## Steps of the calls -/

/-- What a call finds of a closed connection: the response all the same, or its excuse. -/
theorem Innocent.endOfFile (h : Innocent b k net) (hI : NetInv b net) {c : Caller}
    (hc : net.callers[k]? = some c) (hawaits : awaits c.stage = true)
    (hend : EasyRpcRemoteProgress.endOfFile net k = true) : Excused b c (net.runsOf k) := by
  obtain ⟨hany, hshort⟩ := Bool.and_eq_true_iff.mp hend
  obtain ⟨⟨j, a⟩, hmem, hclosed⟩ := List.any_eq_true.mp hany
  obtain ⟨n, hn⟩ := List.mem_iff_getElem?.mp hmem
  obtain ⟨hk, ha⟩ := List.getElem?_zip_eq_some.mp hn
  replace hclosed : (j == k && !a.conn.isOpen) = true := hclosed
  rw [Bool.and_eq_true, beq_iff_eq, Bool.not_eq_true'] at hclosed
  obtain ⟨rfl, hclosed⟩ := hclosed
  rw [hc, Option.any_some, decide_eq_true_eq] at hshort
  rcases (h.conn n a c ha hk hc).closed hclosed with ⟨result, hwhole⟩ | hexcused
  · have hle := readable_of_whole (hI.callers j c hc) hawaits hwhole
    exact absurd hshort (Nat.not_lt.mpr hle)
  · exact hexcused

/-- A response header that the call refuses is that of a result it could not be handed. -/
theorem excused_of_bad_head (hI : NetInv b net) {c : Caller} (hc : net.callers[k]? = some c)
    (hkept : c.responseHead = .kept) {head : CharArray responseHeaderLen}
    (hbegins : head.bytes <+: c.response.written) {what : String} (hbad : RpcSession.checkHead head = .error what) :
    Excused b c (net.runsOf k) := by
  have hbegins' : head.bytes ++ [] <+: c.response.written := by rwa [List.append_nil]
  obtain ⟨run, hrun, -, result, hout, hframe⟩ := hI.answered hc hbegins'
  refine .unanswered hrun fun result' hout' => ?_
  cases hout.symm.trans hout'
  rw [hkept] at hframe
  obtain ⟨hword, -⟩ := bodyLen_of_begins (hbegins'.trans hframe)
  simp only [RpcSession.checkHead, hword, gt_iff_lt, UInt32.lt_iff_toNat_lt] at hbad
  split at hbad
  · rename_i hbig
    exact if_pos hbig
  · cases hbad

/-- The call refuses to send what is out of bounds, and nothing else. -/
theorem excused_of_write {c c' : Caller} {remains : Remains requestHeaderLen}
    {ec : Option (String × Nat)} (hec : ec.isNone = true) (hs : c.write remains ec = some c')
    {what : String} (hfailed : c'.stage = .failed what) (runs : List (Run ep World)) :
    Excused b c runs := by
  unfold Caller.write at hs
  split at hs
  · split at hs
    · rename_i text hwrite
      rw [write_eq] at hwrite
      split at hwrite
      · rename_i hbig
        refine .size fun hrange => ?_
        rw [Nat.mod_eq_of_lt (by omega)] at hbig
        omega
      · cases hwrite
    · cases hs
      cases hfailed
    · cases hec
  · cases hs

/-- A read of the header that fails has an excuse, as the server's end is closed or the length is
    refused. -/
theorem excused_of_readHead (h : Innocent b k net) (hI : NetInv b net) {c c' : Caller}
    (hc : net.callers[k]? = some c) {ec : Option String}
    (hec : (ec.isNone || EasyRpcRemoteProgress.endOfFile net k) = true)
    (hs : c.readHead ec = some c') {what : String} (hfailed : c'.stage = .failed what) :
    Excused b c (net.runsOf k) := by
  have hawaits := (readHead_receives hs).waits
  cases ec with
  | some text => exact h.endOfFile hI hc hawaits hec
  | none =>
      have hreceived := (hI.callers k c hc).received
      unfold Caller.readHead at hs
      split at hs
      · rename_i hnone
        cases hnone
      · rename_i hstage _
        split at hs
        · cases hs
        · rename_i head response hread
          obtain ⟨htaken, hwritten⟩ := Stream.read_spec hread
          split at hs
          · rename_i text hbad
            refine excused_of_bad_head hI hc (h.heads c hc).2 ?_ hbad
            rw [Received, hstage] at hreceived
            rw [hreceived, List.nil_append] at htaken
            have hbegins := response.taken_begins
            rwa [htaken, hwritten] at hbegins
          · cases hs
            cases hfailed
      · cases hs

theorem excused_of_readBody (h : Innocent b k net) (hI : NetInv b net) {c c' : Caller}
    (hc : net.callers[k]? = some c) {ec : Option String}
    (hec : (ec.isNone || EasyRpcRemoteProgress.endOfFile net k) = true)
    (hs : c.readBody ec = some c') {what : String} (hfailed : c'.stage = .failed what) :
    Excused b c (net.runsOf k) := by
  have hawaits := (readBody_receives hs).waits
  cases ec with
  | some text => exact h.endOfFile hI hc hawaits hec
  | none =>
      unfold Caller.readBody at hs
      split at hs
      · rename_i hnone
        cases hnone
      · split at hs
        · cases hs
        · cases hs
          cases hfailed
      · cases hs

/-- A task that ends on the connection of the call sends its frame whole, or closes the socket
    because there is nothing that the call could be handed. -/
theorem Upright.ends {c : Caller} {a : Accepted} {task : RequestTask ep World}
    (h : Upright b (net.runsOf k) c a.conn) (hI : NetInv b net)
    (ha : net.server.conns[task.conn]? = some a) (hk : net.accepted[task.conn]? = some k)
    (hc : net.callers[k]? = some c) {i : Nat}
    (hrun : net.server.pool.workers[i]? = some (.run task)) {outcome : Except Exn Str}
    {result : Except String Str} (hres : task.result = some outcome)
    (hcaught : Caught outcome result) :
    Upright b (net.runsOf k)
      { c with
        response := c.response.write (responseBytes a.conn task .kept none)
        responseHead := .kept }
      (a.conn.respond result .kept none) := by
  have hlink := hI.links _ a k c ha hk hc
  have hnil := hlink.unanswered hrun rfl (by rw [hres]; rfl)
  obtain ⟨run, hmem, hconn, houtcome⟩ := (hlink.tasks.run hrun rfl).2 outcome hres
  replace hmem : run ∈ net.runsOf k := mem_runsOf.mpr ⟨hmem, hconn ▸ hk⟩
  obtain ⟨body, rfl, hw⟩ | ⟨heq, hrefused⟩ := a.conn.respond_cases result .kept none
  · cases hcaught
    obtain ⟨hopen, -, hsent⟩ := Connection.write_ok hw
    refine ⟨fun _ => Or.inl ⟨body, ?_⟩, fun hr => ?_, ?_⟩
    · rw [Stream.written_write, hnil, List.nil_append]
      simp only [responseBytes, hres, hw]
    · rw [hsent] at hr
      cases hopen.symm.trans (h.error hr)
    · rw [hsent]
      exact h.calm
  · rw [heq]
    refine .shuts ?_ (Connection.disconnect_isOpen _) ?_
    · cases hcaught with
      | caught what =>
          refine Or.inr (.unanswered hmem fun result hok => ?_)
          cases houtcome.symm.trans hok
      | returned body =>
          cases hopen : a.conn.isOpen with
          | true =>
              refine Or.inr (.unanswered hmem fun result hok => ?_)
              cases houtcome.symm.trans hok
              refine if_pos ?_
              by_contra hsmall
              rw [responseHead_kept, narrowedSize_toNat] at hsmall
              have hw := write_open hopen body .kept
              rw [if_neg hsmall] at hw
              exact hrefused body _ rfl hw
          | false =>
              rcases h.closed hopen with ⟨whole, hwhole⟩ | hexcused
              · have hlen := congrArg List.length (hnil.symm.trans hwhole)
                rw [length_responseFrame] at hlen
                cases (Nat.eq_zero_of_add_eq_zero_right hlen.symm)
              · exact Or.inr (hexcused.same rfl rfl rfl fun _ hmem => hmem)
    · rw [Connection.disconnect_timer]
      exact h.calm

/-- A call comes to the server. -/
theorem Innocent.accept (h : Innocent b k net) (hI : NetInv b net)
    (hserver : ServerInv b net.server) {j io timeoutMilli : Nat} :
    Innocent b k { net with
      server := { net.server with
        conns := net.server.conns ++ [⟨(Connection.create timeoutMilli).start, io⟩] }
      accepted := net.accepted ++ [j] } := by
  have hlen := hI.length
  refine ⟨h.heads, fun c what hc hstage => ?_, fun n a c ha hn hc => ?_⟩
  · rw [runsOf_accept hI hserver j k]
    exact h.failed c what hc hstage
  · rw [runsOf_accept hI hserver j k]
    rcases Nat.lt_or_ge n net.server.conns.length with hlt | hge
    · exact h.conn n a c ((List.getElem?_append_left hlt).symm.trans ha)
        ((List.getElem?_append_left (hlen.symm ▸ hlt)).symm.trans hn) hc
    · -- a fresh connection is open, and its timer has no handler queued
      have hmem := List.mem_of_getElem? (List.getElem?_append_right hge ▸ ha)
      cases List.mem_singleton.mp hmem
      have hopen : (Connection.create timeoutMilli).start.isOpen = true := by
        rw [Connection.start, Connection.readHead, Connection.startTimer]
        split <;> rfl
      refine ⟨fun hclosed => ?_, (by rintro (h | h) <;> cases h), ?_⟩
      · cases hopen.symm.trans hclosed
      · have hnone : (Connection.create timeoutMilli).start.timer.ready = [] := by
          rw [Connection.start, Connection.readHead, Connection.startTimer]
          split <;> rfl
        rw [hnone]
        exact List.forall_mem_nil _

/-- A request that is sent under its own header, or not at all. -/
theorem write_keeps {c c' : Caller} {remains : Remains requestHeaderLen}
    {ec : Option (String × Nat)} (hremains : remains.isKept = true)
    (hs : c.write remains ec = some c') (hkept : c.requestHead = .kept) :
    c'.requestHead = .kept := by
  have hsent := Remains.eq_kept hremains
  unfold Caller.write at hs
  split at hs
  · split at hs <;> cases hs
    · exact hkept
    · exact hsent
    · exact hsent
  · cases hs

/-- **STEP**: what happens to other calls does not matter. -/
theorem Innocent.step (h : Innocent b k net) (hI : NetInv b net)
    (hserver : ServerInv b net.server) (hT : Tended net) {a : EasyRpcRemoteCall.Act ep World}
    (hspares : spares k net a = true) (hs : Step b net a net') : Innocent b k net' := by
  cases hs with
  | connects protocol mode body =>
      have hruns : ∀ c, Network.runsOf { net with callers := net.callers ++ [c] } k
          = net.runsOf k := fun _ => rfl
      refine ⟨fun c hc => ?_, fun c what hc hstage => ?_, fun n a c ha hk hc => ?_⟩
      · rcases Nat.lt_or_ge k net.callers.length with hlt | hge
        · exact h.heads c ((List.getElem?_append_left hlt).symm.trans hc)
        · have hmem := List.mem_of_getElem? (List.getElem?_append_right hge ▸ hc)
          cases List.mem_singleton.mp hmem
          exact ⟨rfl, rfl⟩
      · rcases Nat.lt_or_ge k net.callers.length with hlt | hge
        · exact h.failed c what ((List.getElem?_append_left hlt).symm.trans hc) hstage
        · have hmem := List.mem_of_getElem? (List.getElem?_append_right hge ▸ hc)
          cases List.mem_singleton.mp hmem
          cases hstage
      · have hlt := hI.known k (List.mem_of_getElem? hk)
        exact h.conn n a c ha hk ((List.getElem?_append_left hlt).symm.trans hc)
  | @writes j remains ec c c' hc hmove =>
      obtain ⟨hresponse, -⟩ := write_sends (hI.callers _ _ hc) hmove
      have hown : j = k → ec.isNone = true ∧ remains.isKept = true := by
        rintro rfl
        rw [spares, bne_self_eq_false, Bool.false_or, Bool.and_eq_true] at hspares
        exact hspares
      refine h.caller_step hc (write_waits hmove) (by rw [hresponse]) ?_ ?_
      · exact fun hj hkept => write_keeps (hown hj).2 hmove hkept
      · exact fun hj what hfailed => excused_of_write (hown hj).1 hmove hfailed _
  | @readsHead j ec c c' hc hmove =>
      refine h.caller_step hc (readHead_waits hmove) (readHead_receives hmove).written
        (fun _ hkept => (readHead_receives hmove).requestHead.trans hkept) ?_
      rintro rfl what hfailed
      rw [spares, bne_self_eq_false, Bool.false_or] at hspares
      exact excused_of_readHead h hI hc hspares hmove hfailed
  | @readsBody j ec c c' hc hmove =>
      refine h.caller_step hc (readBody_waits hmove) (readBody_receives hmove).written
        (fun _ hkept => (readBody_receives hmove).requestHead.trans hkept) ?_
      rintro rfl what hfailed
      rw [spares, bne_self_eq_false, Bool.false_or] at hspares
      exact excused_of_readBody h hI hc hspares hmove hfailed
  | @accepts j io timeoutMilli hj hnot hio => exact h.accept hI hserver
  | @headReads n j c a bytes request hj hc ha hr hopen hread =>
      refine h.at_conn hI ha hj hc rfl rfl rfl rfl rfl rfl rfl rfl (fun _ => ⟨rfl, id⟩) ?_
      rintro rfl hup
      exact ⟨fun hclosed => Bool.noConfusion (hopen.symm.trans hclosed),
        (by rintro (h | h) <;> cases h), hup.calm⟩
  | @bodyReads n j c a bytes request hj hc ha hr hopen hread =>
      refine h.at_conn hI ha hj hc rfl rfl rfl rfl rfl rfl rfl rfl (fun _ => ⟨rfl, id⟩) ?_
      rintro rfl hup
      exact ⟨fun hclosed => Bool.noConfusion (hopen.symm.trans hclosed),
        (by rintro (h | h) <;> cases h), hup.calm⟩
  | @runs i task call hrun hnew =>
      refine h.more_runs rfl rfl rfl fun run hmem => ?_
      rw [runsOf_append]
      split
      · exact List.mem_append_left _ hmem
      · exact hmem
  | @responds i j remains ec task c a outcome result hrun hj hc ha hres hcaught =>
      have hown : j = k → ec = none ∧ remains = .kept := by
        rintro rfl
        simp only [spares, hrun, hj, bne_self_eq_false, Bool.or_false, Bool.and_eq_true,
          Option.isNone_iff_eq_none] at hspares
        exact ⟨hspares.1, Remains.eq_kept hspares.2⟩
      refine h.at_conn hI ha hj hc rfl rfl rfl rfl rfl rfl rfl rfl
        (fun hj => ⟨rfl, fun _ => (hown hj).2⟩) ?_
      rintro rfl hup
      obtain ⟨rfl, rfl⟩ := hown rfl
      exact hup.ends hI ha hj hc hrun hres hcaught
  | server hint heffect => exact h.server hI hT hspares hint heffect

end NetSteps

/-! ## Runs -/

section Runs

variable {b : Bindings ep World} {net : Network ep World} {k : Nat} {c : Caller}

/-- In every run that spares it, a call stays innocent. -/
theorem innocent_of_reaches
    (h : Reaches (remoteSystem b) (fun net a => spares k net a = true) net) :
    Innocent b k net := by
  refine h.invariant_of (J := Going b) (fun _ => going_of_reaches) ?_ ?_
  · rintro net ⟨s, ⟨n, m, rfl⟩, rfl⟩
    exact ⟨nofun, nofun, nofun⟩
  · intro net a net' hG hI hspares hs
    exact hI.step hG.inv hG.server hG.tended hspares (step_cases hs)

/-- **A CALL FAILS FOR A REASON OF ITS OWN**, in every run that inflicts no error on it and leaves
    its two headers alone, whatever the run does to the others. -/
theorem fails_for_a_reason
    (h : Reaches (remoteSystem b) (fun net a => spares k net a = true) net)
    (hc : net.callers[k]? = some c) {what : String} (hfailed : c.stage = .failed what) :
    Excused b c (net.runsOf k) :=
  (innocent_of_reaches h).failed c what hc hfailed

/-- A call that returns has no excuse. -/
theorem not_excused_of_returned (hI : NetInv b net) (hserver : ServerInv b net.server)
    (hc : net.callers[k]? = some c) (hintact : Intact c) {ret : List UInt8}
    (hret : c.stage = .returned ret) : ¬ Excused b c (net.runsOf k) := by
  obtain ⟨run, result, hruns, houtcome, hover, hserved⟩ := hI.returned hserver hc hret
  rw [hintact.responseHead] at hover
  obtain ⟨hmem, hk⟩ := mem_runsOf.mp (hruns ▸ List.mem_cons_self : run ∈ net.runsOf k)
  obtain ⟨j, x, hj, hx, hasked⟩ := hI.run_asked hserver hmem
  cases hk.symm.trans hj
  cases hc.symm.trans hx
  intro hexcused
  cases hexcused with
  | size hsize => exact hsize (hasked hintact.truthful).within
  | unbound hnone => cases (hserved hintact.truthful).1.symm.trans hnone
  | @unanswered run' hmem' hnone =>
      rw [hruns, List.mem_singleton] at hmem'
      subst hmem'
      cases hover.symm.trans (hnone result houtcome)

/-- **HOW A CALL ENDS**: in a run that inflicts no error on it and leaves its two headers alone,
    once the network has come to rest, a call that fits its header has failed exactly if it has an
    excuse, and has returned if it has none. -/
theorem spared_call_returns [Nonempty World]
    (h : Reaches (remoteSystem b) (fun net a => spares k net a = true) net)
    (hrests : Rests ownNet (remoteSystem b) net) (hworkers : net.server.pool.workers ≠ [])
    (hproducers : net.server.pool.producers ≠ [])
    (hstd : ∀ run ∈ net.runs, run.outcome ≠ .error .other) (hc : net.callers[k]? = some c)
    (hfits : Fits c) :
    ((∃ ret, c.stage = .returned ret) ↔ ¬ Excused b c (net.runsOf k))
    ∧ ((∃ what, c.stage = .failed what) ↔ Excused b c (net.runsOf k)) := by
  have hG := going_of_reaches h
  have hI := innocent_of_reaches h
  have hintact : Intact c := ⟨hfits, (hI.heads c hc).1, (hI.heads c hc).2⟩
  have hstill := rests_fitting hrests
  have hfinished := pool_at_rest hstill hG.inv hG.server hG.lively hworkers hstd
  have hended := Still.ended ⟨hstill, hG.inv, hG.tended, hG.lively, hfinished⟩
    (List.length_pos_iff.mpr hproducers) hc hintact
  cases hstage : c.stage with
  | write | readHead | readBody =>
      rw [hstage] at hended
      exact absurd rfl hended
  | returned ret =>
      have hnot := not_excused_of_returned hG.inv hG.server hc hintact hstage
      refine ⟨iff_of_true ⟨ret, rfl⟩ hnot, iff_of_false ?_ hnot⟩
      rintro ⟨what, hfailed⟩
      cases hfailed
  | failed what =>
      have hexcused := hI.failed c what hc hstage
      refine ⟨iff_of_false ?_ (not_not_intro hexcused), iff_of_true ⟨what, rfl⟩ hexcused⟩
      rintro ⟨ret, hreturned⟩
      cases hreturned

end Runs

/-- The steps that a network takes by itself spare every call, as long as headers last. -/
theorem spares_of_own {net : Network ep World} {k : Nat} {a : EasyRpcRemoteCall.Act ep World}
    (ha : ownNet net a = true) (hfit : fitting a = true) : spares k net a = true := by
  have hread : ∀ (j : Nat) (ec : Option String),
      (ec.isNone || (ec == some "End of file" && endOfFile net j)) = true →
      (j != k || ec.isNone || endOfFile net k) = true := by
    intro j ec h
    by_cases hj : j = k
    · subst hj
      rw [bne_self_eq_false, Bool.false_or]
      rw [Bool.or_eq_true, Bool.and_eq_true] at h
      exact Bool.or_eq_true_iff.mpr (h.imp_right And.right)
    · rw [bne_iff_ne.mpr hj]
      rfl
  cases a with
  | connect | accept | headRead | bodyRead | runHandler => rfl
  | write j remains ec =>
      exact Bool.or_eq_true_iff.mpr (Or.inr (Bool.and_eq_true_iff.mpr ⟨ha, hfit⟩))
  | readHead j ec => exact hread j ec ha
  | readBody j ec => exact hread j ec ha
  | respond i remains ec =>
      exact Bool.or_eq_true_iff.mpr (Or.inl (Bool.and_eq_true_iff.mpr ⟨ha, hfit⟩))
  | server a =>
      cases a with
      | headRead n result | bodyRead n result =>
          cases result with
          | none => exact Bool.or_eq_true_iff.mpr (Or.inr ha)
          | some => cases ha
      | expire => cases ha
      | accept | headHandler | bodyHandler | routeReturns | timerHandler | destruct | pool
      | runHandler | respond => rfl

/-- Left to itself under headers that last, a network spares every call. -/
theorem exec_spares {as : List (EasyRpcRemoteCall.Act ep World)} {net net' : Network ep World}
    (k : Nat) (h : exec (only ownNet (fittingSystem b)) net as = some net') :
    exec (only (spares k) (remoteSystem b)) net as = some net' := by
  refine exec_mono (fun net a net' hs => ?_) h
  obtain ⟨hown, hs⟩ := step_only.mp hs
  obtain ⟨hfit, hs⟩ := Option.ite_none_right_eq_some.mp hs
  exact step_only.mpr ⟨spares_of_own hown hfit, hs⟩

/-! ## The echo -/

/-- A call of a protocol that is not bound. -/
def unboundCall : List (EasyRpcRemoteCall.Act bytePack Unit) :=
  [.connect [102] .nonRaw [7], .write 0 .kept none, .accept 0 0 0, .headRead 0,
    .server (.headHandler 0), .bodyRead 0, .server (.bodyHandler 0),
    .readHead 0 (some "End of file")]

/-- A call to a name that is not bound fails, and this is the reason. -/
theorem fails_for_a_reason_unbound : ∃ (net : Network bytePack Unit) (c : Caller),
    net.callers[0]? = some c ∧ c.stage = .failed "End of file"
    ∧ Excused echoBindings c (net.runsOf 0) := by
  have hstart : (remoteSystem echoBindings).start ⟨⟨.initial 1 1, [], []⟩, [], [], []⟩ :=
    ⟨_, ⟨1, 1, rfl⟩, rfl⟩
  have hexec : exec (only (spares 0) (remoteSystem echoBindings))
      ⟨⟨.initial 1 1, [], []⟩, [], [], []⟩ unboundCall = some _ := rfl
  have hreach := reaches_of_only (fun _ _ hspares => hspares) (Reaches.start hstart) hexec
  exact ⟨_, _, rfl, rfl, fails_for_a_reason hreach rfl rfl⟩

/-- A call of the echo with its byte has no excuse. -/
theorem not_excused_echo {net : Network bytePack Unit} (hS : Sound echoBindings net) {k : Nat}
    {c : Caller} (hc : net.callers[k]? = some c) (hp : c.protocol = [101])
    (hm : c.mode = .nonRaw) (hb : c.body = [7]) : ¬ Excused echoBindings c (net.runsOf k) := by
  intro hexcused
  cases hexcused with
  | size hsize =>
      rw [hp, hb] at hsize
      exact hsize (by decide)
  | unbound hnone =>
      rw [hm, hp] at hnone
      cases hnone
  | @unanswered run hmem hnone =>
      obtain ⟨hmem, hk⟩ := mem_runsOf.mp hmem
      obtain ⟨j, x, hj, hx, hasked⟩ := hS.inv.run_asked hS.server hmem
      cases hk.symm.trans hj
      cases hc.symm.trans hx
      have h := hasked (hS.intact k c hc).truthful
      have hentry := h.entry
      rw [hm, hp] at hentry
      have houtcome : run.outcome = .ok [7] := by
        rw [Run.outcome, h.body, hb, ← Option.some.inj hentry]
        rfl
      cases hnone _ houtcome

/-- The call of the echo returns, however its network comes to rest. -/
theorem spared_call_returns_echo : ∃ (net : Network bytePack Unit) (c : Caller) (ret : List UInt8),
    net.callers[0]? = some c ∧ c.stage = .returned ret := by
  have hstart : (remoteSystem echoBindings).start ⟨⟨.initial 1 1, [], []⟩, [], [], []⟩ :=
    ⟨_, ⟨1, 1, rfl⟩, rfl⟩
  have hfirst : exec (only (spares 0) (remoteSystem echoBindings))
      ⟨⟨.initial 1 1, [], []⟩, [], [], []⟩ (oneCall.take 2) = some _ := rfl
  have hfitting : exec (fittingSystem echoBindings) ⟨⟨.initial 1 1, [], []⟩, [], [], []⟩
      (oneCall.take 2) = some _ := rfl
  obtain ⟨bs, net, hbs, hrests⟩ := (fitting_pays echoBindings).comes_to_rest
    (fun _ _ => ownNet_brings) _
  have hreach := reaches_of_only (fun _ _ hspares => hspares)
    (reaches_of_only (fun _ _ hspares => hspares) (Reaches.start hstart) hfirst)
    (exec_spares 0 hbs)
  have hstart' : (fittingSystem echoBindings).start ⟨⟨.initial 1 1, [], []⟩, [], [], []⟩ := hstart
  have hsound := sound_of_reachable ((Reachable.start hstart').exec hfitting)
  have hleads := (⟨bs, exec_only hbs⟩ : Leads (fittingSystem echoBindings) _ net)
  have hS : Sound echoBindings net :=
    sound_of_reachable (((Reachable.start hstart').exec hfitting).exec (exec_only hbs))
  -- the call is still the one that was made
  obtain ⟨x, hx, hlater⟩ := AtMostOnce.later_of_leads (k := 0) (hsound.leads hleads) rfl
  obtain ⟨c, hc, rfl⟩ := Option.map_eq_some_iff.mp hx
  have hrequest : Request.mk c.protocol c.mode c.body = ⟨[101], .nonRaw, [7]⟩ := hlater.request
  obtain ⟨hp, hm, hb⟩ := Request.mk.inj hrequest
  obtain ⟨hworkers, hproducers⟩ := lengths_of_leads ⟨bs, exec_only (exec_fitting hbs)⟩
  obtain ⟨hreturned, -⟩ := spared_call_returns hreach (rests_of_fitting hrests)
    (List.ne_nil_of_length_pos (by rw [hworkers]; exact Nat.one_pos))
    (List.ne_nil_of_length_pos (by rw [hproducers]; exact Nat.one_pos))
    (std_of_bindings hS echoBindings_std) hc (hS.intact 0 c hc).fits
  obtain ⟨ret, hret⟩ := hreturned.mpr (not_excused_echo hS hc hp hm hb)
  exact ⟨net, c, ret, hc, hret⟩

end EasyRpcRemoteFailure
