import EasyRpc.RemoteRefinementProofs
import EasyRpc.ServerProgressProofs

/-! # Remote calls come to an end

    The steps of the network are paid for by its calls, so left to itself, without errors from
    outside, it comes to rest after a bounded number of them, whatever the order.  At rest every
    call has ended that fits its header and whose two headers have lasted (`every_call_ends`): a
    call that still waits has a thread that can go on for it, or a socket at whose end its read
    fails.  Where other bytes have come over a header, one end can wait for what never comes.

    Behind this is that nothing is dropped without a trace.  A request that has been read is in
    the custody of the pool, or answered in full, or its socket is closed (`Tended`). -/

namespace EasyRpcRemoteProgress

open Transition ThreadTable Throwing Potential ByteStream EasyRpcWire EasyRpcConnection
open EasyRpcDispatch EasyRpcThreadPool EasyRpcThreadPoolPotential EasyRpcTaskCustody
open EasyRpcRoundTrip EasyRpcServer EasyRpcServerProgress EasyRpcRemoteCall

variable {ep : Easypack} {World : Type}

/-! ## Steps are paid for -/

/-- The steps a client's call has before it. -/
@[simp] def stagePotential : Stage → Nat
  | .write => 3
  | .readHead => 2
  | .readBody _ => 1
  | .returned _ => 0
  | .failed _ => 0

/-- The calls whose connection has not been accepted. -/
def unaccepted (net : Network ep World) : Nat :=
  (List.range net.callers.length).countP fun k => decide (k ∉ net.accepted)

/-- What is still to be done in the network: on the server, by the calls, and for the connections
    not accepted yet. -/
def networkPotential (net : Network ep World) : Nat :=
  serverPotential net.server + (net.callers.map fun c => stagePotential c.stage).sum
    + 17 * unaccepted net

/-- What an act brings in: a new call, or an event of the server from outside. -/
def networkBrings : EasyRpcRemoteCall.Act ep World → Nat
  | .connect _ _ _ => 21
  | .server a => serverBrings a
  | _ => 0

section Pays

variable {b : Bindings ep World} {net net' : Network ep World}

/-- The steps of the server that a step of the network comes with. -/
theorem effect_of_net {a : EasyRpcRemoteCall.Act ep World} (hs : Step b net a net') :
    net'.server = net.server ∨ ∃ act, Effect b net.server act net'.server := by
  cases hs with
  | connects | writes | readsHead | readsBody => exact Or.inl rfl
  | @accepts k io timeoutMilli hk hnot hio =>
      exact Or.inr ⟨.accept io timeoutMilli, .accepts hio⟩
  | @headReads n k c a bytes request hk hc ha hr hopen hread =>
      exact Or.inr ⟨.headRead n (some ⟨bytes.val, bytes.property⟩), .headReads ha hr hopen⟩
  | @bodyReads n k c a bytes request hk hc ha hr hopen hread =>
      exact Or.inr ⟨_, .bodyReads ha hr hopen bytes.property⟩
  | @runs i task call hrun hnew => exact Or.inr ⟨.runHandler i call, .runs hrun hnew⟩
  | @responds i k remains ec task c a outcome result hrun hk hc ha hres hcaught =>
      exact Or.inr ⟨.respond i remains (ec.map Prod.fst), .ends hrun hres hcaught ha⟩
  | server hint heffect => exact Or.inr ⟨_, heffect⟩

/-- The calls wait for what they waited for. -/
theorem stages_set {k : Nat} {c : Caller} (hc : net.callers[k]? = some c) (c' : Caller) :
    ((net.callers.set k c').map fun c => stagePotential c.stage).sum + stagePotential c.stage
      = (net.callers.map fun c => stagePotential c.stage).sum + stagePotential c'.stage :=
  sum_move (fun c : Caller => stagePotential c.stage) hc c'

theorem unaccepted_set (net : Network ep World) (k : Nat) (c' : Caller) (s : Server ep World) :
    unaccepted { net with server := s, callers := net.callers.set k c' } = unaccepted net := by
  simp only [unaccepted, List.length_set]

theorem unaccepted_connect (net : Network ep World) (c : Caller) :
    unaccepted { net with callers := net.callers ++ [c] } ≤ unaccepted net + 1 := by
  simp only [unaccepted, List.length_append, List.length_singleton, List.range_succ,
    List.countP_append, List.countP_singleton]
  split <;> omega

/-- An accept leaves one call less to be accepted. -/
theorem unaccepted_accept {k : Nat} (hk : k < net.callers.length) (hnot : k ∉ net.accepted)
    (s : Server ep World) :
    unaccepted { net with server := s, accepted := net.accepted ++ [k] } + 1 ≤ unaccepted net := by
  refine countP_lt_of_mem (List.mem_range.mpr hk) ?_ (decide_eq_true hnot) ?_
  · intro j _ hj
    rw [decide_eq_true_eq] at hj ⊢
    exact fun hmem => hj (List.mem_append_left _ hmem)
  · rw [decide_eq_false_iff_not, not_not]
    exact List.mem_append_right _ List.mem_cons_self

/-- A call moves on. -/
theorem caller_pays {k : Nat} {c c' : Caller} (hc : net.callers[k]? = some c)
    (h : stagePotential c'.stage + 1 ≤ stagePotential c.stage) :
    networkPotential { net with callers := net.callers.set k c' } + 1 ≤ networkPotential net := by
  have hmove := stages_set hc c'
  have hsame := unaccepted_set net k c' net.server
  simp only [networkPotential] at hsame ⊢
  omega

theorem write_pays {c c' : Caller} {remains : Remains requestHeaderLen}
    {ec : Option (String × Nat)} (hs : c.write remains ec = some c') :
    stagePotential c'.stage + 1 ≤ stagePotential c.stage := by
  unfold Caller.write at hs
  split at hs
  · rename_i hstage
    split at hs <;>
      (cases hs
       simp [hstage])
  · cases hs

theorem readHead_pays {c c' : Caller} {ec : Option String} (hs : c.readHead ec = some c') :
    stagePotential c'.stage + 1 ≤ stagePotential c.stage := by
  unfold Caller.readHead at hs
  split at hs
  · rename_i hstage
    cases hs
    simp [hstage]
  · rename_i hstage
    split at hs
    · cases hs
    · split at hs <;>
        (cases hs
         simp [hstage])
  · cases hs

theorem readBody_pays {c c' : Caller} {ec : Option String} (hs : c.readBody ec = some c') :
    stagePotential c'.stage + 1 ≤ stagePotential c.stage := by
  unfold Caller.readBody at hs
  split at hs
  · rename_i hstage
    cases hs
    simp [hstage]
  · rename_i hstage
    split at hs
    · cases hs
    · cases hs
      simp [hstage]
  · cases hs

/-- A step of the server whose call stays where it is. -/
theorem served_pays {k : Nat} {c c' : Caller} (hc : net.callers[k]? = some c)
    (hstage : c'.stage = c.stage) {s : Server ep World}
    (h : serverPotential s + 1 ≤ serverPotential net.server) :
    networkPotential { net with server := s, callers := net.callers.set k c' } + 1
      ≤ networkPotential net := by
  have hmove := stages_set hc c'
  have hsame := unaccepted_set net k c' s
  rw [hstage] at hmove
  simp only [networkPotential] at hsame ⊢
  omega

/-- **EVERY STEP OF THE NETWORK IS PAID FOR** by its calls. -/
theorem network_pays (b : Bindings ep World) :
    Pays (remoteSystem b) networkPotential networkBrings := by
  intro net a net' hs
  cases step_cases hs with
  | connects protocol mode body =>
      have hnew := unaccepted_connect net (.connect protocol mode body)
      have hstage : stagePotential (Caller.connect protocol mode body).stage = 3 := rfl
      simp only [networkPotential, networkBrings, List.map_append, List.sum_append, List.map_cons,
        List.map_nil, List.sum_cons, List.sum_nil, hstage] at hnew ⊢
      omega
  | writes hc hmove => exact caller_pays hc (write_pays hmove)
  | readsHead hc hmove => exact caller_pays hc (readHead_pays hmove)
  | readsBody hc hmove => exact caller_pays hc (readBody_pays hmove)
  | @accepts k io timeoutMilli hk hnot hio =>
      have hserver := effect_pays (b := b) (a := .accept io timeoutMilli) (.accepts hio)
      have hless := unaccepted_accept hk hnot { net.server with
        conns := net.server.conns ++ [⟨(Connection.create timeoutMilli).start, io⟩] }
      simp only [networkPotential, networkBrings, serverBrings] at hserver hless ⊢
      omega
  | @headReads n k c a bytes request hk hc ha hr hopen hread =>
      refine served_pays hc ?_ (effect_pays (b := b)
        (a := .headRead n (some ⟨bytes.val, bytes.property⟩)) (.headReads ha hr hopen))
      rfl
  | @bodyReads n k c a bytes request hk hc ha hr hopen hread =>
      refine served_pays hc ?_ (effect_pays (b := b) (.bodyReads ha hr hopen bytes.property))
      rfl
  | @runs i task call hrun hnew =>
      have hserver := effect_pays (b := b) (a := .runHandler i call) (.runs hrun hnew)
      simp only [networkPotential, networkBrings, serverBrings, unaccepted] at hserver ⊢
      omega
  | @responds i k remains ec task c a outcome result hrun hk hc ha hres hcaught =>
      have hserver := effect_pays (b := b) (a := .respond i remains (ec.map Prod.fst))
        (.ends hrun hres hcaught ha)
      simp only [serverBrings, Nat.add_zero] at hserver
      refine served_pays hc ?_ hserver
      rfl
  | server hint heffect =>
      have hserver := effect_pays heffect
      simp only [networkPotential, networkBrings, unaccepted] at hserver ⊢
      omega

end Pays

/-! ## Nothing is dropped without a trace -/

/-- The call has sent its request and waits for the response. -/
def awaits : Stage → Bool
  | .readHead => true
  | .readBody _ => true
  | _ => false

/-- A request that has been read is with the pool, or answered in full, or refused. -/
def Attended (pool : ThreadPool (RequestTask ep World)) (n : Nat) (c : Caller)
    (conn : Connection) : Prop :=
  conn.reading = .idle ∨ conn.reading = .routing →
    conn.isOpen = false ∨ 0 < held (ofConn n) pool
    ∨ ∃ result, c.response.written = responseFrame result c.responseHead

/-- What keeps a waiting call from being forgotten: its request is complete, and its connection is
    read, in the pool, answered or closed. -/
structure Tended (net : Network ep World) : Prop where
  sent : ∀ (k : Nat) c, net.callers[k]? = some c → awaits c.stage = true →
    c.request.written = c.requestFrame
  attended : ∀ (n : Nat) a (k : Nat) c, net.server.conns[n]? = some a →
    net.accepted[n]? = some k → net.callers[k]? = some c →
    Attended net.server.pool n c a.conn

section TendedSteps

variable {b : Bindings ep World} {net net' : Network ep World}

theorem Attended.of_other {pool : ThreadPool (RequestTask ep World)} {n : Nat} {c : Caller}
    {conn : Connection} (hidle : conn.reading ≠ .idle) (hrouting : conn.reading ≠ .routing) :
    Attended pool n c conn := by
  rintro (hr | hr)
  · exact absurd hr hidle
  · exact absurd hr hrouting

theorem Attended.of_closed {pool : ThreadPool (RequestTask ep World)} {n : Nat} {c : Caller}
    {conn : Connection} (hclosed : conn.isOpen = false) : Attended pool n c conn :=
  fun _ => Or.inl hclosed

/-- The pool goes on, and holds a task of the connection if it held one. -/
theorem Attended.pool_step {pool pool' : ThreadPool (RequestTask ep World)} {n : Nat}
    {c : Caller} {conn : Connection} (h : Attended pool n c conn)
    (hheld : 0 < held (ofConn n) pool → 0 < held (ofConn n) pool') :
    Attended pool' n c conn :=
  fun hr => (h hr).imp_right (Or.imp_left hheld)

/-- A step at connection `n` and its call. -/
theorem Tended.at_conn (h : Tended net) (hI : NetInv b net) {n k : Nat} {c c' : Caller}
    {a : Accepted} {conn' : Connection} (hk : net.accepted[n]? = some k)
    (hc : net.callers[k]? = some c)
    (hconns : net'.server.conns = net.server.conns.set n ⟨conn', a.io⟩)
    (hcallers : net'.callers = net.callers.set k c') (haccepted : net'.accepted = net.accepted)
    (hsent : awaits c'.stage = true → c'.request.written = c'.requestFrame)
    (hheld : ∀ m, m ≠ n → 0 < held (ofConn m) net.server.pool →
      0 < held (ofConn m) net'.server.pool)
    (hatt : Attended net.server.pool n c a.conn → Attended net'.server.pool n c' conn')
    (ha : net.server.conns[n]? = some a) : Tended net' := by
  constructor
  · intro m x hm
    rw [hcallers] at hm
    rcases getElem?_set_some hm with ⟨-, rfl⟩ | ⟨-, hold⟩
    · exact hsent
    · exact h.sent m x hold
  · intro m x j y hx hj hy
    rw [hconns] at hx
    rw [haccepted] at hj
    rw [hcallers] at hy
    rcases getElem?_set_some hx with ⟨rfl, rfl⟩ | ⟨hne, hx⟩
    · cases hk.symm.trans hj
      rw [getElem?_set_moved hc] at hy
      cases hy
      exact hatt (h.attended _ a _ c ha hk hc)
    · rcases getElem?_set_some hy with ⟨rfl, -⟩ | ⟨-, hy⟩
      · exact absurd (hI.conn_unique hk hj) hne
      · exact (h.attended m x j y hx hj hy).pool_step (hheld m (Ne.symm hne))

/-- A step of the connection alone. -/
theorem Tended.conn_step (h : Tended net) (hI : NetInv b net) {n : Nat} {a : Accepted}
    {conn' : Connection} {pool' : ThreadPool (RequestTask ep World)}
    (ha : net.server.conns[n]? = some a)
    (hheld : ∀ m, 0 < held (ofConn m) net.server.pool → 0 < held (ofConn m) pool')
    (hatt : ∀ c, Attended net.server.pool n c a.conn → Attended pool' n c conn') :
    Tended { net with server := { net.server.setConn n a conn' with pool := pool' } } := by
  obtain ⟨hlt, -⟩ := List.getElem?_eq_some_iff.mp ha
  have hk := List.getElem?_eq_getElem (hI.length.symm ▸ hlt)
  have hc := List.getElem?_eq_getElem (hI.known _ (List.mem_of_getElem? hk))
  exact h.at_conn hI hk hc rfl (List.set_getElem_self _).symm rfl (h.sent _ _ hc)
    (fun m _ => hheld m) (hatt _) ha

/-- A step of a call alone. -/
theorem Tended.caller_step (h : Tended net) {k : Nat} {c c' : Caller}
    (hc : net.callers[k]? = some c) (hresponse : c'.response.written = c.response.written)
    (hhead : c'.responseHead = c.responseHead)
    (hsent : awaits c'.stage = true → c'.request.written = c'.requestFrame) :
    Tended { net with callers := net.callers.set k c' } := by
  constructor
  · intro m x hm
    rcases getElem?_set_some hm with ⟨-, rfl⟩ | ⟨-, hold⟩
    · exact hsent
    · exact h.sent m x hold
  · intro n a j y ha hj hy
    rcases getElem?_set_some hy with ⟨rfl, rfl⟩ | ⟨-, hold⟩
    · have hatt := h.attended n a k c ha hj hc
      rw [Attended, hresponse, hhead]
      exact hatt
    · exact h.attended n a j y ha hj hold

/-- The steps of the server that concern no call. -/
theorem Tended.server (h : Tended net) (hI : NetInv b net) (hL : Lively net.server)
    {a : EasyRpcServer.Act ep World} {s : Server ep World} (hint : isInternal a = true)
    (hs : Effect b net.server a s) : Tended { net with server := s } := by
  have hsame : ∀ m, 0 < held (ofConn m) net.server.pool → 0 < held (ofConn m) net.server.pool :=
    fun _ hpos => hpos
  cases hs with
  | accepts | headReads | bodyReads | runs | ends => cases hint
  | headFails ha hr => exact h.conn_step hI ha hsame fun c _ => .of_other nofun nofun
  | headAccepted ha hr hopen hv =>
      exact h.conn_step hI ha hsame fun c _ => .of_other nofun nofun
  | headRefused ha hr =>
      exact h.conn_step hI ha hsame fun c _ => .of_closed (Connection.disconnect_isOpen _)
  | bodyFails ha hr => exact h.conn_step hI ha hsame fun c _ => .of_other nofun nofun
  | bodyRefused ha hr =>
      exact h.conn_step hI ha hsame fun c _ => .of_closed (Connection.disconnect_isOpen _)
  | @routes n a protocol body entry p ha hr hopen hp hb hf hadd =>
      have hkept := fun m => held_kept (a := .addTask a.io ⟨entry, body, n, none⟩) (ofConn m)
        hL.alive.running nofun nofun (EasyRpcThreadPool.step_cases hadd)
      refine h.conn_step hI ha (fun m hpos => ?_) fun c _ _ => Or.inr (Or.inl ?_)
      · rw [hkept m]
        exact Nat.lt_of_lt_of_le hpos (Nat.le_add_right _ _)
      · rw [hkept n, brought, ofConn, beq_self_eq_true]
        exact Nat.succ_pos _
  | returns ha hr hidle =>
      exact h.conn_step hI ha hsame fun c hatt _ => hatt (Or.inr hr)
  | expires ha hwaiting => exact h.conn_step hI ha hsame fun c hatt => hatt
  | handles ha hready hkeeps hr hopen =>
      refine h.conn_step hI ha hsame fun c hatt hreading => ?_
      rw [hr] at hreading
      refine (hatt hreading).imp_left fun hclosed => ?_
      exact Bool.eq_false_iff.mpr fun ho => Bool.false_ne_true (hclosed.symm.trans (hopen ho))
  | destructs ha hr hfuncs hnone =>
      exact h.conn_step hI ha hsame fun c _ => .of_closed (Connection.disconnect_isOpen _)
  | @pool a p hint' hp =>
      have hends : ∀ (i : Nat) w task, a = .worker i w →
          net.server.pool.workers[i]? ≠ some (.run task) := by
        rintro i w task rfl hrun
        simp only [Server.internal, hrun] at hint'
        cases hint'
      have hkept := fun m => held_kept (ofConn m) hL.alive.running hends
        (not_stop_of_internal hint') (EasyRpcThreadPool.step_cases hp)
      refine ⟨h.sent, fun n x k c hx hk hc => ?_⟩
      refine (h.attended n x k c hx hk hc).pool_step fun hpos => ?_
      show 0 < held (ofConn n) p
      rw [hkept n]
      exact Nat.lt_of_lt_of_le hpos (Nat.le_add_right _ _)

/-- What a call has to have sent before it waits. -/
theorem write_sends {c c' : Caller} (hI : CallerInv c) {remains : Remains requestHeaderLen}
    {ec : Option (String × Nat)} (hs : c.write remains ec = some c') :
    c'.response = c.response
    ∧ (awaits c'.stage = true → c'.request.written = c'.requestFrame) := by
  unfold Caller.write at hs
  split at hs
  · rename_i hstage
    split at hs
    · cases hs
      exact ⟨rfl, nofun⟩
    · rename_i buffers hwrite
      cases hs
      refine ⟨rfl, fun _ => ?_⟩
      rw [Stream.written_write, (hI.unsent hstage).1, write_flatten _ _ _ _ hwrite]
      rfl
    · cases hs
      exact ⟨rfl, nofun⟩
  · cases hs

/-- What a read of the call leaves as it was. -/
structure Receives (c c' : Caller) : Prop where
  waits : awaits c.stage = true
  written : c'.response.written = c.response.written
  request : c'.request = c.request
  requestHead : c'.requestHead = c.requestHead
  requestFrame : c'.requestFrame = c.requestFrame

/-- The read of the header takes what it takes off the response. -/
theorem readHead_receives {c c' : Caller} {ec : Option String} (hs : c.readHead ec = some c') :
    Receives c c' := by
  unfold Caller.readHead at hs
  split at hs
  · rename_i hstage
    cases hs
    exact ⟨by rw [hstage]; rfl, rfl, rfl, rfl, rfl⟩
  · rename_i hstage
    split at hs
    · cases hs
    · rename_i head response hread
      obtain ⟨-, hwritten⟩ := Stream.read_spec hread
      split at hs <;>
        (cases hs
         exact ⟨by rw [hstage]; rfl, hwritten, rfl, rfl, rfl⟩)
  · cases hs

theorem readBody_receives {c c' : Caller} {ec : Option String} (hs : c.readBody ec = some c') :
    Receives c c' := by
  unfold Caller.readBody at hs
  split at hs
  · rename_i hstage
    cases hs
    exact ⟨by rw [hstage]; rfl, rfl, rfl, rfl, rfl⟩
  · rename_i hstage
    split at hs
    · cases hs
    · rename_i body response hread
      obtain ⟨-, hwritten⟩ := Stream.read_spec hread
      cases hs
      exact ⟨by rw [hstage]; rfl, hwritten, rfl, rfl, rfl⟩
  · cases hs

/-- The task that ends has sent its frame whole, or the socket is closed behind it. -/
theorem Attended.ends {pool : ThreadPool (RequestTask ep World)} {c : Caller}
    {conn : Connection} {task : RequestTask ep World} {outcome : Except Exn Str}
    {result : Except String Str} (hres : task.result = some outcome)
    (hcaught : Caught outcome result) (hnil : c.response.written = [])
    (remains : Remains responseHeaderLen) (ec : Option (String × Nat)) :
    Attended pool task.conn
      { c with
        response := c.response.write (responseBytes conn task remains ec)
        responseHead := remains }
      (conn.respond result remains (ec.map Prod.fst)) := by
  intro _
  obtain ⟨body, rfl, hw⟩ | ⟨heq, -⟩ := conn.respond_cases result remains (ec.map Prod.fst)
  · cases hcaught
    obtain ⟨-, hec, -⟩ := Connection.write_ok hw
    refine Or.inr (Or.inr ⟨body, ?_⟩)
    rw [Stream.written_write, hnil, List.nil_append]
    cases ec with
    | some err => cases hec
    | none =>
        rw [Option.map_none] at hw
        simp only [responseBytes, hres, hw]
  · rw [heq]
    exact Or.inl (Connection.disconnect_isOpen _)

/-- **STEP**. -/
theorem Tended.step (h : Tended net) (hI : NetInv b net) (hL : Lively net.server)
    {a : EasyRpcRemoteCall.Act ep World} (hs : Step b net a net') : Tended net' := by
  have hsame : ∀ m : Nat, ∀ n : Nat, m ≠ n → 0 < held (ofConn m) net.server.pool →
      0 < held (ofConn m) net.server.pool := fun _ _ _ hpos => hpos
  cases hs with
  | connects protocol mode body =>
      refine ⟨fun k c hc => ?_, fun n a k c ha hk hc => ?_⟩
      · rcases Nat.lt_or_ge k net.callers.length with hlt | hge
        · exact h.sent k c ((List.getElem?_append_left hlt).symm.trans hc)
        · have hmem := List.mem_of_getElem? (List.getElem?_append_right hge ▸ hc)
          cases List.mem_singleton.mp hmem
          exact nofun
      · have hlt := hI.known k (List.mem_of_getElem? hk)
        exact h.attended n a k c ha hk ((List.getElem?_append_left hlt).symm.trans hc)
  | writes hc hmove =>
      obtain ⟨hresponse, hsent⟩ := write_sends (hI.callers _ _ hc) hmove
      exact h.caller_step hc (by rw [hresponse]) (write_waits hmove).responseHead hsent
  | readsHead hc hmove =>
      obtain ⟨hawaits, hresponse, hrequest, -, hframe⟩ := readHead_receives hmove
      exact h.caller_step hc hresponse (readHead_waits hmove).responseHead fun _ => by
        rw [hrequest, hframe]
        exact h.sent _ _ hc hawaits
  | readsBody hc hmove =>
      obtain ⟨hawaits, hresponse, hrequest, -, hframe⟩ := readBody_receives hmove
      exact h.caller_step hc hresponse (readBody_waits hmove).responseHead fun _ => by
        rw [hrequest, hframe]
        exact h.sent _ _ hc hawaits
  | @accepts k io timeoutMilli hk hnot hio =>
      refine ⟨h.sent, fun n a j c ha hj hc => ?_⟩
      rcases Nat.lt_or_ge n net.server.conns.length with hlt | hge
      · exact h.attended n a j c ((List.getElem?_append_left hlt).symm.trans ha)
          ((List.getElem?_append_left (hI.length.symm ▸ hlt)).symm.trans hj) hc
      · have hmem := List.mem_of_getElem? (List.getElem?_append_right hge ▸ ha)
        cases List.mem_singleton.mp hmem
        exact .of_other nofun nofun
  | @headReads n k c a bytes request hk hc ha hr hopen hread =>
      obtain ⟨-, hwritten⟩ := Stream.read_spec hread
      exact h.at_conn hI hk hc rfl rfl rfl (fun haw => hwritten.trans (h.sent k c hc haw))
        (fun m => hsame m n) (fun _ => .of_other nofun nofun) ha
  | @bodyReads n k c a bytes request hk hc ha hr hopen hread =>
      obtain ⟨-, hwritten⟩ := Stream.read_spec hread
      exact h.at_conn hI hk hc rfl rfl rfl (fun haw => hwritten.trans (h.sent k c hc haw))
        (fun m => hsame m n) (fun _ => .of_other nofun nofun) ha
  | @runs i task call hrun hnew =>
      refine ⟨h.sent, fun n a k c ha hk hc => ?_⟩
      refine (h.attended n a k c ha hk hc).pool_step fun hpos => ?_
      have hmove := held_setWorker (ofConn n) hrun
        (.run { task with result := some (task.entry.outcome task.body call) })
      exact Nat.lt_of_lt_of_eq hpos (Nat.add_right_cancel hmove).symm
  | @responds i k remains ec task c a outcome result hrun hk hc ha hres hcaught =>
      have hnil := (hI.links _ _ _ _ ha hk hc).unanswered hrun rfl (by rw [hres]; rfl)
      refine h.at_conn hI hk hc rfl rfl rfl (h.sent k c hc) ?_
        (fun _ => .ends hres hcaught hnil remains ec) ha
      intro m hne hpos
      have hmove := held_setWorker (ofConn m) hrun .notify
      have hother : ofConn m task = false := beq_eq_false_iff_ne.mpr (Ne.symm hne)
      simp only [runs, hother, weight] at hmove
      exact Nat.lt_of_lt_of_eq hpos hmove.symm
  | server hint heffect => exact h.server hI hL hint heffect

end TendedSteps

/-! ## A network at rest -/

/-- What the call is to read next. -/
def expects : Stage → Nat
  | .readHead => responseHeaderLen
  | .readBody resHead => resHead.bodyLen.toNat
  | _ => 0

/-- The server has closed the connection of call `k`, and what was sent on it does not reach. -/
def endOfFile (net : Network ep World) (k : Nat) : Bool :=
  (net.accepted.zip net.server.conns).any (fun (j, a) => j == k && !a.conn.isOpen)
  && net.callers[k]?.any fun c => c.response.pending.length < expects c.stage

/-- What the calls and the server do by themselves: without errors, but for those that come from
    a closed socket. -/
def ownNet (net : Network ep World) : EasyRpcRemoteCall.Act ep World → Bool
  | .connect _ _ _ => false
  | .write _ _ ec => ec.isNone
  | .readHead k ec => ec.isNone || (ec == some "End of file" && endOfFile net k)
  | .readBody k ec => ec.isNone || (ec == some "End of file" && endOfFile net k)
  | .accept _ _ _ => true
  | .headRead _ => true
  | .bodyRead _ => true
  | .runHandler _ _ => true
  | .respond _ _ ec => ec.isNone
  | .server a => ownAct net.server a

/-- What the network does by itself brings nothing in. -/
theorem ownNet_brings {net : Network ep World} {a : EasyRpcRemoteCall.Act ep World}
    (ha : ownNet net a = true) : networkBrings a = 0 := by
  cases a with
  | connect => cases ha
  | server a => exact ownAct_brings ha
  | write | readHead | readBody | accept | headRead | bodyRead | runHandler | respond => rfl

section Rest

variable {b : Bindings ep World} {net : Network ep World}

/-- What the network can do at all by itself, it can do under headers that last. -/
theorem step_of_rests (h : Rests ownNet (fittingSystem b) net)
    {a : EasyRpcRemoteCall.Act ep World} (ha : ownNet net a = true) (hfit : fitting a = true) :
    net.step b a = none := by
  have hnone : (if fitting a then net.step b a else none) = none := h a ha
  rwa [if_pos hfit] at hnone

/-- Whether a request can be written does not depend on what becomes of its header. -/
theorem write_none {c : Caller} {remains : Remains requestHeaderLen} {ec : Option (String × Nat)}
    (h : c.write .kept ec = none) : c.write remains ec = none := by
  unfold Caller.write at h ⊢
  split at h
  · split at h <;> cases h
  · rfl

theorem respond_none {i : Nat} {remains : Remains responseHeaderLen} {ec : Option (String × Nat)}
    (h : net.respond b i .kept ec = none) : net.respond b i remains ec = none := by
  unfold Network.respond at h ⊢
  split at h
  · rename_i task hrun
    split at h
    · rename_i k c a hcaller ha
      simp only [Option.map_eq_none_iff, Server.step, Server.respond, hrun] at h ⊢
      cases hres : task.result with
      | none => rfl
      | some outcome =>
          simp only [hres, Server.endTask, ha] at h ⊢
          cases outcome with
          | ok result => simpa only [Option.map_eq_none_iff] using h
          | error e =>
              cases e with
              | std what => simpa only [Option.map_eq_none_iff] using h
              | other => rfl
    · rfl
  · rfl

/-- A network is at rest if nothing is possible under headers that last. -/
theorem rests_of_fitting (h : Rests ownNet (fittingSystem b) net) :
    Rests ownNet (remoteSystem b) net := by
  intro a ha
  cases a with
  | connect => cases ha
  | server | readHead | readBody | accept | headRead | bodyRead | runHandler =>
      exact step_of_rests h ha rfl
  | write k remains ec =>
      have hnone := step_of_rests h (a := .write k .kept ec) ha rfl
      show net.onCaller k _ = none
      replace hnone : net.onCaller k (·.write .kept ec) = none := hnone
      unfold Network.onCaller at hnone ⊢
      split at hnone
      · rfl
      · rename_i c hc
        rw [Option.map_eq_none_iff] at hnone ⊢
        exact write_none hnone
  | respond i remains ec => exact respond_none (step_of_rests h (a := .respond i .kept ec) ha rfl)

/-- A network at rest is at rest among the fitting calls too. -/
theorem rests_fitting (h : Rests ownNet (remoteSystem b) net) :
    Rests ownNet (fittingSystem b) net := by
  intro a ha
  show (if fitting a then net.step b a else none) = none
  split
  · exact h a ha
  · rfl

/-- The server's part of a network at rest. -/
theorem server_at_rest (h : Rests ownNet (fittingSystem b) net)
    {a : EasyRpcServer.Act ep World} (ha : ownAct net.server a = true)
    (hint : isInternal a = true) : net.server.step b a = none := by
  have hnone := step_of_rests h (a := .server a) ha rfl
  replace hnone : (if isInternal a then
      (net.server.step b a).map fun s => { net with server := s } else none) = none := hnone
  rwa [if_pos hint, Option.map_eq_none_iff] at hnone

theorem callerOf_eq {n k : Nat} {c : Caller} (hk : net.accepted[n]? = some k)
    (hc : net.callers[k]? = some c) : net.callerOf n = some (k, c) := by
  rw [Network.callerOf, hk, Option.bind_some, hc]
  rfl

/-- No worker is left with a task: its function could be run, or its response be written. -/
theorem no_runs [Nonempty World] (h : Rests ownNet (fittingSystem b) net) (hI : NetInv b net)
    (hserver : ServerInv b net.server)
    (hstd : ∀ run ∈ net.runs, run.outcome ≠ .error .other) (i : Nat)
    (task : RequestTask ep World) : net.server.pool.workers[i]? ≠ some (.run task) := by
  intro hrun
  cases hres : task.result with
  | none =>
      obtain ⟨world⟩ := ‹Nonempty World›
      have hnone := step_of_rests h (a := .runHandler i ⟨world, [], []⟩) rfl rfl
      simp only [Network.step, Network.runHandler, hrun, Server.step, Server.runHandler, hres]
        at hnone
      cases hnone
  | some outcome =>
      have hlt := hserver.conn_of_run hrun
      have ha := List.getElem?_eq_getElem hlt
      have hk := List.getElem?_eq_getElem (hI.length.symm ▸ hlt)
      have hc := List.getElem?_eq_getElem (hI.known _ (List.mem_of_getElem? hk))
      have hbelongs := (hI.links _ _ _ _ ha hk hc).tasks.run hrun rfl
      obtain ⟨run, hmem, -, houtcome⟩ := hbelongs.2 outcome hres
      have hnone := step_of_rests h (a := .respond i .kept none) rfl rfl
      replace hnone : net.respond b i .kept none = none := hnone
      have hends : net.server.pool.step (.worker i none) = some _ := worker_ends hrun
      simp only [Network.respond, hrun, callerOf_eq hk hc, ha, Server.step, Server.respond, hres,
        Option.map_none] at hnone
      cases outcome with
      | ok result =>
          simp only [Server.endTask, ha, hends] at hnone
          cases hnone
      | error e =>
          cases e with
          | std what =>
              simp only [Server.endTask, ha, hends] at hnone
              cases hnone
          | other => exact hstd run hmem houtcome

/-- The pool has finished: what it holds could go on. -/
theorem pool_at_rest [Nonempty World] (h : Rests ownNet (fittingSystem b) net)
    (hI : NetInv b net) (hserver : ServerInv b net.server) (hL : Lively net.server)
    (hsome : net.server.pool.workers ≠ [])
    (hstd : ∀ run ∈ net.runs, run.outcome ≠ .error .other) : Finished net.server.pool :=
  finished_of_still hL hsome (no_runs h hI hserver hstd) fun a ha =>
    server_at_rest (a := .pool a) h ha rfl

/-- A read of the server whose bytes are there completes. -/
theorem serverReads_of_le {n k len : Nat} {c : Caller} (hk : net.accepted[n]? = some k)
    (hc : net.callers[k]? = some c) (hle : len ≤ c.request.pending.length)
    {act : { bytes : List UInt8 // bytes.length = len } → EasyRpcServer.Act ep World}
    (hstep : ∀ bytes, net.server.step b (act bytes) ≠ none) :
    net.serverReads b n len act ≠ none := by
  obtain ⟨bytes, request, hread⟩ := Stream.read_of_le hle
  obtain ⟨s, hs⟩ := Option.ne_none_iff_exists'.mp (hstep bytes)
  simp only [Network.serverReads, callerOf_eq hk hc, hread, hs]
  exact Option.some_ne_none _

/-- The handler of the header read always comes to an end. -/
theorem headHandler_of_done {conn : Connection} {ec : Bool} (hr : conn.reading = .headDone ec) :
    conn.headHandler ≠ none := by
  simp only [Connection.headHandler, hr]
  split
  · exact Option.some_ne_none _
  · split
    · exact Option.some_ne_none _
    · split <;> exact Option.some_ne_none _

/-- So does that of the body read, where the slices are in the buffer. -/
theorem bodyHandler_of_done {conn : Connection} {ec : Bool} (protocol body : Str)
    (hr : conn.reading = .bodyDone ec)
    (hslices : ec = false → protocolSlice conn.reqHead conn.protocolAndBody = some protocol
      ∧ bodySlice conn.reqHead conn.protocolAndBody = some body) :
    conn.bodyHandler ≠ none := by
  simp only [Connection.bodyHandler, hr]
  split
  · exact Option.some_ne_none _
  · cases ec with
    | true => exact Option.some_ne_none _
    | false =>
        obtain ⟨hp, hb⟩ := hslices rfl
        simp only [Connection.stopTimer_reqHead, Connection.stopTimer_protocolAndBody, hp, hb]
        exact Option.some_ne_none _

end Rest

/-- A network at rest, its pool finished. -/
structure Still (b : Bindings ep World) (net : Network ep World) : Prop where
  rests : Rests ownNet (fittingSystem b) net
  inv : NetInv b net
  tended : Tended net
  lively : Lively net.server
  finished : Finished net.server.pool

section Still

variable {b : Bindings ep World} {net : Network ep World} {n k : Nat} {a : Accepted} {c : Caller}

/-- Its I/O threads are in no call of `add_task`. -/
theorem Still.producer (h : Still b net) {io : Nat} (hio : io < net.server.pool.producers.length) :
    net.server.pool.producers[io]? = some .idle := by
  rw [List.getElem?_eq_getElem hio]
  exact congrArg some (h.finished.producers _ (List.getElem_mem hio))

/-- In a network at rest no connection is inside `route`. -/
theorem Still.not_routing (h : Still b net) (ha : net.server.conns[n]? = some a) :
    a.conn.reading ≠ .routing := by
  intro hr
  have hnone := server_at_rest h.rests (a := .routeReturns n) rfl rfl
  simp only [Server.step, Server.onConn, ha, hr, h.producer (h.lively.io n a ha)] at hnone
  cases hnone

theorem Still.ioFree (h : Still b net) (ha : net.server.conns[n]? = some a) :
    net.server.ioFree a.io = true :=
  ioFree_of_finished h.finished (fun _ _ => h.not_routing) (h.lively.io n a ha)

theorem Still.not_headDone (h : Still b net) (ha : net.server.conns[n]? = some a) (ec : Bool) :
    a.conn.reading ≠ .headDone ec := by
  intro hr
  have hnone := server_at_rest h.rests (a := .headHandler n) rfl rfl
  simp only [Server.step, Server.onConn, ha, h.ioFree ha, if_true, Option.map_eq_none_iff]
    at hnone
  exact headHandler_of_done hr hnone

/-- The reads of a closed socket fail. -/
theorem Still.not_closed (h : Still b net) (ha : net.server.conns[n]? = some a)
    (hr : a.conn.reading = .head ∨ a.conn.reading = .body) : a.conn.isOpen = true := by
  by_contra hopen
  rw [Bool.not_eq_true] at hopen
  have hclosed : (net.server.conns[n]?.any fun a => !a.conn.isOpen) = true := by
    rw [ha, Option.any_some, hopen]
    rfl
  rcases hr with hr | hr
  · have hnone := server_at_rest h.rests (a := .headRead n none) hclosed rfl
    simp only [Server.step, Server.onConn, ha, Connection.headRead, hr] at hnone
    cases hnone
  · have hnone := server_at_rest h.rests (a := .bodyRead n none) hclosed rfl
    simp only [Server.step, Server.onConn, ha, Connection.bodyRead, hr] at hnone
    cases hnone

/-- The request that was sent whole is read. -/
theorem Still.not_head (h : Still b net) (ha : net.server.conns[n]? = some a)
    (hk : net.accepted[n]? = some k) (hc : net.callers[k]? = some c)
    (hsent : c.request.written = c.requestFrame) : a.conn.reading ≠ .head := by
  intro hr
  have hopen := h.not_closed ha (Or.inl hr)
  have hlink := h.inv.links n a k c ha hk hc
  have hpending : c.request.pending = c.requestFrame :=
    Stream.pending_of_taken (hlink.fresh hr) hsent
  refine serverReads_of_le hk hc ?_ (fun bytes => ?_)
    (step_of_rests h.rests (a := .headRead n) rfl rfl)
  · rw [hpending, Caller.requestFrame, List.length_append, c.wireHead.length_eq]
    exact Nat.le_add_right _ _
  · simp only [Server.step, Server.onConn, ha, Connection.headRead, hr, hopen]
    exact Option.some_ne_none _

theorem Still.not_body (h : Still b net) (ha : net.server.conns[n]? = some a)
    (hk : net.accepted[n]? = some k) (hc : net.callers[k]? = some c) (hintact : Intact c)
    (hsent : c.request.written = c.requestFrame) : a.conn.reading ≠ .body := by
  intro hr
  have hopen := h.not_closed ha (Or.inr hr)
  obtain ⟨htaken, hframed⟩ := (h.inv.links n a k c ha hk hc).accepted hr
  have hbegins : a.conn.head.bytes ++ [] <+: c.requestFrame := by
    rw [List.append_nil, ← htaken]
    exact c.request.taken_begins.trans (h.inv.callers k c hc).sent
  obtain ⟨hhead, -⟩ := head_of_begins hbegins
  have hpending := Stream.pending_of_taken (hhead ▸ htaken) hsent
  have hnone := step_of_rests h.rests (a := .bodyRead n) rfl rfl
  simp only [Network.step, Network.bodyRead, ha] at hnone
  refine serverReads_of_le hk hc ?_ (fun bytes => ?_) hnone
  · rw [hpending, (hframed.sent hintact.truthful hhead).2]
  · simp only [Server.step, Server.onConn, ha, Connection.bodyRead, hr, hopen, bytes.property,
      beq_self_eq_true, Bool.and_true, if_true]
    exact Option.some_ne_none _

theorem Still.not_bodyDone (h : Still b net) (ha : net.server.conns[n]? = some a)
    (hk : net.accepted[n]? = some k) (hc : net.callers[k]? = some c) (hintact : Intact c)
    (ec : Bool) : a.conn.reading ≠ .bodyDone ec := by
  intro hr
  have hlink := h.inv.links n a k c ha hk hc
  have hhandled : a.conn.bodyHandler ≠ none := by
    refine bodyHandler_of_done c.protocol c.body hr fun hec => ?_
    rw [hec] at hr
    have htruthful := hintact.truthful
    obtain ⟨-, hreq, hbuffer⟩ := hlink.bodied_sent (h.inv.callers k c hc) htruthful hr
    rw [hreq, hbuffer]
    exact slices_of_lengths htruthful.head.protocolLen htruthful.head.bodyLen
  have hnone := server_at_rest h.rests (a := .bodyHandler n) rfl rfl
  simp only [Server.step, ha, h.ioFree ha, if_true, Server.bodyHandler] at hnone
  obtain ⟨r, hresult⟩ := Option.ne_none_iff_exists'.mp hhandled
  rw [hresult] at hnone
  cases r with
  | returned conn => cases hnone
  | route conn protocol body mode =>
      simp only at hnone
      split at hnone
      · cases hnone
      · simp only [ThreadPool.step, h.producer (h.lively.io n a ha)] at hnone
        cases hnone

/-- **GIVEN AWAY**: a connection whose call waits has read the request and is done with it. -/
theorem Still.idle (h : Still b net) (ha : net.server.conns[n]? = some a)
    (hk : net.accepted[n]? = some k) (hc : net.callers[k]? = some c) (hintact : Intact c)
    (hawaits : awaits c.stage = true) : a.conn.reading = .idle := by
  have hsent := h.tended.sent k c hc hawaits
  cases hr : a.conn.reading with
  | idle => rfl
  | head => exact absurd hr (h.not_head ha hk hc hsent)
  | headDone ec => exact absurd hr (h.not_headDone ha ec)
  | body => exact absurd hr (h.not_body ha hk hc hintact hsent)
  | bodyDone ec => exact absurd hr (h.not_bodyDone ha hk hc hintact ec)
  | routing => exact absurd hr (h.not_routing ha)

/-- A call that waits is on its way through the server. -/
theorem Still.accepted (h : Still b net) (hsome : 0 < net.server.pool.producers.length)
    (hc : net.callers[k]? = some c) : k ∈ net.accepted := by
  by_contra hnot
  have hlt := (List.getElem?_eq_some_iff.mp hc).1
  have hnone := step_of_rests h.rests (a := .accept k 0 0) rfl rfl
  simp only [Network.step, hlt, hnot, not_false_eq_true, and_self, if_true, Server.step, hsome]
    at hnone
  cases hnone

theorem length_responseFrame (result : Str) (remains : Remains responseHeaderLen) :
    (responseFrame result remains).length = responseHeaderLen + result.length := by
  rw [responseFrame_eq, List.length_append, (responseHead result remains).length_eq]

/-- A response that has been written whole, under its own header, can be read. -/
theorem readable_of_whole (hI : CallerInv c) (hawaits : awaits c.stage = true) {result : Str}
    (hwhole : c.response.written = responseFrame result .kept) :
    expects c.stage ≤ c.response.pending.length := by
  have hreceived := hI.received
  rw [Received] at hreceived
  have hlen : c.response.taken.length + c.response.pending.length
      = responseHeaderLen + result.length := by
    rw [← length_responseFrame result .kept, ← hwhole, Stream.written, List.length_append]
  cases hstage : c.stage with
  | write | returned | failed =>
      rw [hstage] at hawaits
      cases hawaits
  | readHead =>
      rw [hstage] at hreceived
      rw [hreceived] at hlen
      simp only [expects, List.length_nil] at hlen ⊢
      omega
  | readBody resHead =>
      rw [hstage] at hreceived
      obtain ⟨head, htaken, hcheck⟩ := hreceived
      have hbegins : head.bytes ++ c.response.pending <+: responseFrame result .kept := by
        rw [← htaken, ← hwhole]
        exact List.prefix_rfl
      obtain ⟨hword, -⟩ := bodyLen_of_begins hbegins
      have hhead : resHead = ResponseHeader.ofBytes head := by
        rw [RpcSession.checkHead] at hcheck
        split at hcheck
        · cases hcheck
        · cases hcheck
          rfl
      rw [htaken, head.length_eq] at hlen
      have hle := Nat.mod_le result.length (2 ^ 32)
      rw [expects, hhead, hword, responseHead_kept, narrowedSize_toNat]
      omega

/-- A call whose bytes are there can read them. -/
theorem read_completes (hawaits : awaits c.stage = true)
    (hle : expects c.stage ≤ c.response.pending.length) :
    c.readHead none ≠ none ∨ c.readBody none ≠ none := by
  cases hstage : c.stage with
  | write | returned | failed =>
      rw [hstage] at hawaits
      cases hawaits
  | readHead =>
      rw [hstage] at hle
      obtain ⟨head, response, hread⟩ := Stream.read_of_le hle
      refine Or.inl ?_
      simp only [Caller.readHead, hstage]
      simp only [expects] at hread
      rw [hread]
      simp only
      split <;> exact Option.some_ne_none _
  | readBody resHead =>
      rw [hstage] at hle
      obtain ⟨body, response, hread⟩ := Stream.read_of_le hle
      refine Or.inr ?_
      simp only [Caller.readBody, hstage]
      simp only [expects] at hread
      rw [hread]
      exact Option.some_ne_none _

theorem read_fails (hawaits : awaits c.stage = true) (what : String) :
    c.readHead (some what) ≠ none ∨ c.readBody (some what) ≠ none := by
  cases hstage : c.stage with
  | write | returned | failed =>
      rw [hstage] at hawaits
      cases hawaits
  | readHead =>
      refine Or.inl ?_
      simp only [Caller.readHead, hstage]
      exact Option.some_ne_none _
  | readBody resHead =>
      refine Or.inr ?_
      simp only [Caller.readBody, hstage]
      exact Option.some_ne_none _

/-- Where the server's end is closed and too few bytes are left, the read ends with end of file.
    -/
theorem endOfFile_of_closed (ha : net.server.conns[n]? = some a)
    (hk : net.accepted[n]? = some k) (hc : net.callers[k]? = some c)
    (hclosed : a.conn.isOpen = false)
    (hshort : c.response.pending.length < expects c.stage) : endOfFile net k = true := by
  have hmem : (k, a) ∈ net.accepted.zip net.server.conns :=
    List.mem_of_getElem? (List.getElem?_zip_eq_some.mpr ⟨hk, ha⟩)
  refine Bool.and_eq_true_iff.mpr ⟨List.any_eq_true.mpr ⟨(k, a), hmem, ?_⟩, ?_⟩
  · show (k == k && !a.conn.isOpen) = true
    rw [beq_self_eq_true, hclosed]
    rfl
  · rw [hc, Option.any_some]
    exact decide_eq_true hshort

/-- **AT REST EVERY CALL HAS ENDED**: one that waits could read the response of the request that
    it gave away, or the end of its stream. -/
theorem Still.ended (h : Still b net) (hsome : 0 < net.server.pool.producers.length)
    (hc : net.callers[k]? = some c) (hintact : Intact c) : c.stage.status ≠ .waiting := by
  intro hwaiting
  -- a call that has not written yet could do so
  have hawaits : awaits c.stage = true := by
    cases hstage : c.stage with
    | readHead | readBody => rfl
    | returned | failed =>
        rw [hstage] at hwaiting
        cases hwaiting
    | write =>
        have hnone := step_of_rests h.rests (a := .write k .kept none) rfl rfl
        simp only [Network.step, Network.onCaller, hc, Caller.write, hstage] at hnone
        split at hnone <;> cases hnone
  obtain ⟨n, hn⟩ := List.mem_iff_getElem?.mp (h.accepted hsome hc)
  obtain ⟨a, ha⟩ : ∃ a, net.server.conns[n]? = some a :=
    ⟨_, List.getElem?_eq_getElem (h.inv.length ▸ (List.getElem?_eq_some_iff.mp hn).1)⟩
  have hstuck : ∀ ec, (ec.isNone || (ec == some "End of file" && endOfFile net k)) = true →
      c.readHead ec = none ∧ c.readBody ec = none := by
    intro ec hec
    have hhead := step_of_rests h.rests (a := .readHead k ec) hec rfl
    have hbody := step_of_rests h.rests (a := .readBody k ec) hec rfl
    simp only [Network.step, Network.onCaller, hc, Option.map_eq_none_iff] at hhead hbody
    exact ⟨hhead, hbody⟩
  obtain ⟨hhead, hbody⟩ := hstuck none rfl
  have hshort : c.response.pending.length < expects c.stage := by
    refine Nat.lt_of_not_le fun hle => ?_
    exact (read_completes hawaits hle).elim (absurd hhead) (absurd hbody)
  have hatt := h.tended.attended n a k c ha hn hc (Or.inl (h.idle ha hn hc hintact hawaits))
  rcases hatt with hclosed | hheld | ⟨result, hwhole⟩
  · have hend := endOfFile_of_closed ha hn hc hclosed hshort
    obtain ⟨hhead, hbody⟩ := hstuck (some "End of file") (by rw [hend]; rfl)
    exact (read_fails hawaits "End of file").elim (absurd hhead) (absurd hbody)
  · exact absurd (held_finished h.finished _) (Nat.ne_of_gt hheld)
  · rw [hintact.responseHead] at hwhole
    have hI := h.inv.callers k c hc
    exact absurd (readable_of_whole hI hawaits hwhole) (Nat.not_le.mpr hshort)

end Still

/-! ## Runs -/

section Runs

variable {b : Bindings ep World} {net net' : Network ep World}

/-- What a call's end rests on. -/
structure Going (b : Bindings ep World) (net : Network ep World) : Prop where
  inv : NetInv b net
  server : ServerInv b net.server
  tended : Tended net
  lively : Lively net.server

theorem Going.step (h : Going b net) {a : EasyRpcRemoteCall.Act ep World}
    (hs : (remoteSystem b).step net a = some net') : Going b net' := by
  have heffect : Step b net a net' := step_cases hs
  have hserver : ServerInv b net'.server := by
    rcases server_step hs with heq | ⟨act, hact⟩
    · rw [heq]
      exact h.server
    · exact h.server.step hact
  refine ⟨h.inv.step h.server heffect, hserver, h.tended.step h.inv h.lively heffect, ?_⟩
  rcases effect_of_net heffect with heq | ⟨act, hact⟩
  · rw [heq]
    exact h.lively
  · exact h.lively.step hact

theorem going_initial (n m : Nat) :
    Going b ⟨⟨.initial n m, [], []⟩, [], [], []⟩ := by
  have hstart : (remoteSystem b).start ⟨⟨.initial n m, [], []⟩, [], [], []⟩ :=
    ⟨_, ⟨n, m, rfl⟩, rfl⟩
  exact ⟨netInv_of_reaches (Reachable.start hstart),
    serverInv_of_reachable (Reachable.start ⟨n, m, rfl⟩), ⟨nofun, nofun⟩,
    ⟨alive_initial n m, nofun⟩⟩

theorem going_of_reaches {ok : Network ep World → EasyRpcRemoteCall.Act ep World → Prop}
    (h : Reaches (remoteSystem b) ok net) : Going b net := by
  refine h.invariant ?_ fun net a net' hG _ hs => hG.step hs
  rintro net ⟨s, ⟨n, m, rfl⟩, rfl⟩
  exact going_initial n m

theorem networkPotential_initial (n m : Nat) :
    networkPotential (⟨⟨.initial n m, [], []⟩, [], [], []⟩ : Network ep World) = 4 * n + 5 := by
  have hpool : poolPotential (ThreadPool.initial n m : ThreadPool (RequestTask ep World)) = _ :=
    poolPotential_initial n m
  simp only [networkPotential, serverPotential, unaccepted, hpool, held_initial, List.map_nil,
    List.sum_nil, List.length_nil, List.range_zero, List.countP_nil, Nat.add_zero, Nat.mul_zero]

/-- Among the fitting calls every step is paid for as well. -/
theorem fitting_pays (b : Bindings ep World) :
    Pays (fittingSystem b) networkPotential networkBrings :=
  fun net a net' hs => network_pays b net a net' (Option.ite_none_right_eq_some.mp hs).2

/-- The threads of the server are those it began with. -/
theorem lengths_step {a : EasyRpcRemoteCall.Act ep World}
    (hs : (remoteSystem b).step net a = some net') :
    net'.server.pool.workers.length = net.server.pool.workers.length
    ∧ net'.server.pool.producers.length = net.server.pool.producers.length := by
  rcases effect_of_net (step_cases hs) with heq | ⟨act, hact⟩
  · rw [heq]
    exact ⟨rfl, rfl⟩
  · exact lengths_of_effect hact

theorem lengths_of_leads (h : Leads (remoteSystem b) net net') :
    net'.server.pool.workers.length = net.server.pool.workers.length
    ∧ net'.server.pool.producers.length = net.server.pool.producers.length :=
  h.invariant (I := fun t => t.server.pool.workers.length = net.server.pool.workers.length
      ∧ t.server.pool.producers.length = net.server.pool.producers.length)
    (fun _ _ _ hlen hs =>
      ⟨(lengths_step hs).1.trans hlen.1, (lengths_step hs).2.trans hlen.2⟩)
    ⟨rfl, rfl⟩

/-- **EVERY CALL ENDS**: a network whose server has a worker and an I/O thread, left to itself
    without errors from outside, takes a bounded number of further steps, in whatever order; it
    can stop nowhere but with every call returned or failed that fits its header and whose headers
    have lasted, as long as no handler has thrown what is no `std::exception`; and it can get
    there. -/
theorem every_call_ends [Nonempty World] {n m : Nat} (hn : 0 < n) (hm : 0 < m)
    {as : List (EasyRpcRemoteCall.Act ep World)}
    (hexec : exec (remoteSystem b) ⟨⟨.initial n m, [], []⟩, [], [], []⟩ as = some net) :
    (∀ bs net', exec (only ownNet (remoteSystem b)) net bs = some net' →
      as.length + bs.length ≤ 4 * n + 5 + (as.map networkBrings).sum
      ∧ (Rests ownNet (remoteSystem b) net' →
          (∀ run ∈ net'.runs, run.outcome ≠ .error .other) →
          ∀ c ∈ net'.callers, Intact c → c.stage.status ≠ .waiting))
    ∧ ∃ bs net', exec (only ownNet (remoteSystem b)) net bs = some net'
        ∧ Rests ownNet (remoteSystem b) net' := by
  have hown : ∀ (net : Network ep World) a, ownNet net a = true → networkBrings a = 0 :=
    fun _ _ => ownNet_brings
  refine ⟨fun bs net' hbs => ⟨?_, fun hrests hstd c hmem hintact => ?_⟩,
    (network_pays b).comes_to_rest hown net⟩
  · have hbefore := (network_pays b).length_le hexec
    have hafter := (network_pays b).length_le_of_own hown hbs
    rw [networkPotential_initial] at hbefore
    omega
  · have hleads : Leads (remoteSystem b) ⟨⟨.initial n m, [], []⟩, [], [], []⟩ net' :=
      ⟨_, exec_append hexec (exec_only hbs)⟩
    have hG : Going b net' := hleads.invariant (fun _ _ _ hG hs => hG.step hs) (going_initial n m)
    obtain ⟨hworkers, hproducers⟩ := lengths_of_leads hleads
    replace hworkers : net'.server.pool.workers.length = n :=
      hworkers.trans List.length_replicate
    replace hproducers : net'.server.pool.producers.length = m :=
      hproducers.trans List.length_replicate
    have hsome : net'.server.pool.workers ≠ [] := List.ne_nil_of_length_pos (hworkers ▸ hn)
    have hstill := rests_fitting hrests
    have hfinished := pool_at_rest hstill hG.inv hG.server hG.lively hsome hstd
    obtain ⟨k, hk⟩ := List.mem_iff_getElem?.mp hmem
    exact Still.ended ⟨hstill, hG.inv, hG.tended, hG.lively, hfinished⟩ (hproducers ▸ hm) hk
      hintact

/-- Handlers that throw nothing but `std::exception`. -/
theorem std_of_bindings (h : Sound b net)
    (hstd : ∀ mode protocol entry, b.find mode protocol = some entry →
      ∀ body call, entry.outcome body call ≠ .error .other) :
    ∀ run ∈ net.runs, run.outcome ≠ .error .other := by
  intro run hmem
  obtain ⟨k, c, -, hc, hasked⟩ := h.inv.run_asked h.server hmem
  exact hstd _ _ _ (hasked (h.intact k c hc).truthful).entry run.body run.call

/-- A run under headers that last is a run. -/
theorem exec_fitting {own : Network ep World → EasyRpcRemoteCall.Act ep World → Bool}
    {as : List (EasyRpcRemoteCall.Act ep World)}
    (h : exec (only own (fittingSystem b)) net as = some net') :
    exec (only own (remoteSystem b)) net as = some net' := by
  refine exec_mono (fun net a net' hs => ?_) h
  obtain ⟨hown, hfit⟩ := step_only.mp hs
  exact step_only.mpr ⟨hown, (Option.ite_none_right_eq_some.mp hfit).2⟩

end Runs

theorem echoBindings_std (mode : CallMode) (protocol : Str) (entry : Entry bytePack Unit)
    (hf : echoBindings.find mode protocol = some entry) (body : Str) (call : Call Unit) :
    entry.outcome body call ≠ .error .other := by
  have hecho : entry = .invoker (bindNonMemberFunc echoFunction) := by
    simp only [Bindings.find, echoBindings] at hf
    split at hf
    · split at hf <;> cases hf
      rfl
    · split at hf <;> cases hf
  subst hecho
  cases body <;> exact nofun

/-- A call that has sent its request ends within 28 more steps. -/
theorem every_call_ends_echo : ∃ (net net' : Network bytePack Unit)
    (bs : List (EasyRpcRemoteCall.Act bytePack Unit)),
    net.callers.map Caller.stage = [.readHead]
    ∧ exec (only ownNet (remoteSystem echoBindings)) net bs = some net' ∧ bs.length ≤ 28
    ∧ ∀ c ∈ net'.callers, c.stage.status ≠ .waiting := by
  have hstart : (fittingSystem echoBindings).start ⟨⟨.initial 1 1, [], []⟩, [], [], []⟩ :=
    ⟨_, ⟨1, 1, rfl⟩, rfl⟩
  have hfirst : exec (fittingSystem echoBindings) ⟨⟨.initial 1 1, [], []⟩, [], [], []⟩
      (oneCall.take 2) = some _ := rfl
  have hexec : exec (remoteSystem echoBindings) ⟨⟨.initial 1 1, [], []⟩, [], [], []⟩
      (oneCall.take 2) = some _ := rfl
  obtain ⟨hevery, -⟩ := every_call_ends Nat.one_pos Nat.one_pos hexec
  -- under headers that last it comes to rest as well
  obtain ⟨bs, net', hbs, hrests⟩ := (fitting_pays echoBindings).comes_to_rest
    (fun _ _ => ownNet_brings) _
  obtain ⟨hlen, hdone⟩ := hevery bs net' (exec_fitting hbs)
  have hS : Sound echoBindings net' := sound_of_reachable
    (((Reachable.start hstart).exec hfirst).exec (exec_only hbs))
  have hended := hdone (rests_of_fitting hrests) (std_of_bindings hS echoBindings_std)
  refine ⟨_, net', bs, rfl, exec_fitting hbs, Nat.le_of_add_le_add_left hlen, ?_⟩
  intro c hmem
  obtain ⟨k, hk⟩ := List.mem_iff_getElem?.mp hmem
  exact hended c hmem (hS.intact k c hk)

end EasyRpcRemoteProgress
