import EasyRpc.ConnectionProofs
import Mathlib.Tactic.ByContra

/-! # Round trips — what one end writes, the other end reads

    A request frame leaves `rpc_session::write` and enters a connection through its two reads; a
    response frame leaves `connection::write` and enters the client through `read_head`,
    `check_head` and `read_body`.  Both headers carry lengths narrowed to 32 bits while the
    payload keeps its full length, both senders check the narrowed lengths against
    `max_buffer_len`, and both headers are read from memory that they have left (`Remains`).

    A payload comes back whole exactly where the header in front of it says its true lengths, or
    where one of the two ends refuses it (`requestRoundTrips_iff`, `responseRoundTrips_iff`).  A
    header that is still there when it is read does so for payloads shorter than `2 ^ 32` bytes. -/

namespace EasyRpcRoundTrip

open EasyRpcWire EasyRpcConnection

/-! ## Requests -/

/-- The reception of a request: the header read and its handler, the body read and its handler
    up to the route call, each read completing without an error on what the stream holds next.
    With the outcome comes the rest of the stream. -/
def receive (c : Connection) (stream : List UInt8) : Option (Connection.BodyResult × List UInt8) :=
  (readExactly requestHeaderLen stream).bind fun (head, stream) =>
    (c.headRead (some head)).bind fun c =>
      c.headHandler.bind fun c =>
        (readExactly c.protocolAndBody.length stream).bind fun (bytes, stream) =>
          (c.bodyRead (some bytes.bytes)).bind fun c =>
            c.bodyHandler.map fun result => (result, stream)

/-- A request that the client sends and whose header the server accepts reaches `route` as the
    client was given it, by any connection that waits for a header, and its frame is consumed. -/
def RequestRoundTrips (protocol : Str) (mode : CallMode) (body : Str)
    (remains : Remains requestHeaderLen) : Prop :=
  ∀ buffers, RpcSession.write protocol mode body remains = .ok buffers →
    ∀ head rest, readExactly requestHeaderLen buffers.flatten = some (head, rest) →
      (checkHead head).2 = true →
        ∀ c : Connection, c.reading = .head → c.isOpen = true →
          ∃ c', receive c buffers.flatten = some (.route c' protocol body mode, [])

/-- The header says how long the two strings are, and the mode. -/
structure Says (head : CharArray requestHeaderLen) (protocol : Str) (mode : CallMode)
    (body : Str) : Prop where
  protocolLen : (wordAt head.bytes 0).toNat = protocol.length
  bodyLen : (wordAt head.bytes 4).toNat = body.length
  mode : wordAt head.bytes 8 = mode.value

/-- The requests that come through: as long as the header is kept, those whose lengths fit its
    words, or that one of the ends refuses; else those that one of the ends refuses, or of which
    the bytes in the header's place happen to say the truth. -/
def RequestWhen (protocol : Str) (mode : CallMode) (body : Str) :
    Remains requestHeaderLen → Prop
  | .kept =>
      protocol.length + body.length < 2 ^ 32
      ∨ (protocol.length + body.length) % 2 ^ 32 = 0
      ∨ 8388608 ≤ (protocol.length + body.length) % 2 ^ 32
  | .overwritten left =>
      8388608 < (protocol.length + body.length) % 2 ^ 32
      ∨ (checkHead left).2 = false
      ∨ protocol.length + body.length < 2 ^ 32 ∧ Says left protocol mode body

/-- What a connection makes of an accepted header and the stream behind it. -/
theorem receive_accepted {c : Connection} (hr : c.reading = .head) (hopen : c.isOpen = true)
    {head : CharArray requestHeaderLen} (hv : (checkHead head).2 = true)
    (payload : List UInt8) :
    ∃ conn : List UInt8 → Connection, receive c (head.bytes ++ payload)
      = (readExactly (resizeProtocolAndBody (checkHead head).1).length payload).bind
          fun read =>
            (protocolSlice (checkHead head).1 read.1.bytes).bind fun protocol =>
              (bodySlice (checkHead head).1 read.1.bytes).map fun body =>
                (.route (conn read.1.bytes) protocol body (checkHead head).1.mode, read.2) := by
  let reqHead := (checkHead head).1
  have hreq : checkHead head = (reqHead, true) := Prod.ext rfl hv
  -- the connection after the header read, its handler and the body read
  let c1 : Connection := { c with head := head, reading := .headDone false }
  let c2 : Connection := (c1.setReqHead reqHead).readProtocolAndBody
  let c3 (bytes : List UInt8) : Connection :=
    { c2 with protocolAndBody := bytes, reading := .bodyDone false }
  have h1 : c.headRead (some head) = some c1 := by
    simp only [Connection.headRead, hr, hopen, if_true, c1]
  have h2 : c1.headHandler = some c2 := by
    have hhead : c1.head = head := rfl
    have hopen1 : c1.isOpen = true := hopen
    have hr1 : c1.reading = .headDone false := rfl
    simp only [Connection.headHandler, hr1, hopen1, hhead, hreq, Bool.not_true,
      Bool.false_eq_true, if_false, if_true, c2]
  have h3 : ∀ bytes : CharArray c2.protocolAndBody.length,
      c2.bodyRead (some bytes.bytes) = some (c3 bytes.bytes) := by
    intro bytes
    have hopen2 : c2.isOpen = true := hopen
    have hr2 : c2.reading = .body := rfl
    simp only [Connection.bodyRead, hr2, hopen2, bytes.length_eq, BEq.rfl, Bool.and_true, if_true,
      c3]
  refine ⟨fun bytes => (c3 bytes).stopTimer.setReading .routing, ?_⟩
  rw [receive, readExactly_append head.length_eq]
  simp only [Option.bind_some, h1, h2]
  refine Option.bind_congr fun read _ => ?_
  obtain ⟨bytes, rest⟩ := read
  simp only [h3, Option.bind_some]
  have hopen3 : (c3 bytes.bytes).isOpen = true := hopen
  have hr3 : (c3 bytes.bytes).reading = .bodyDone false := rfl
  have hreq3 : (c3 bytes.bytes).reqHead = reqHead := rfl
  have hpay3 : (c3 bytes.bytes).protocolAndBody = bytes.bytes := rfl
  simp only [Connection.bodyHandler, hr3, Connection.stopTimer_isOpen, hopen3, Bool.not_true,
    Bool.false_eq_true, if_false, Connection.stopTimer_reqHead, hreq3,
    Connection.stopTimer_protocolAndBody, hpay3]
  change _ = (protocolSlice reqHead bytes.bytes).bind _
  cases protocolSlice reqHead bytes.bytes with
  | none => rfl
  | some protocol =>
      simp only [Option.bind_some]
      cases bodySlice reqHead bytes.bytes with
      | none => rfl
      | some body => rfl

/-- The narrowed length is the length, modulo `2 ^ 32`. -/
theorem narrowedSize_toNat (str : Str) : (narrowedSize str).toNat = str.length % 2 ^ 32 :=
  UInt32.toNat_ofNat'

/-- A slice is as long as it was asked to be. -/
theorem length_of_slice {buffer : List UInt8} {offset len : Nat} {slice : Str}
    (h : sliceAt buffer offset len = some slice) : slice.length = len := by
  rw [sliceAt] at h
  obtain ⟨hle, hslice⟩ := Option.ite_none_right_eq_some.mp h
  cases hslice
  rw [List.length_take, List.length_drop]
  omega

/-- The slices of a buffer that holds both strings, under their true lengths. -/
theorem slices_of_lengths {protocol body : Str} {reqHead : RequestHeader}
    (hp : reqHead.protocolLen.toNat = protocol.length) (hb : reqHead.bodyLen.toNat = body.length) :
    protocolSlice reqHead (protocol ++ body) = some protocol
    ∧ bodySlice reqHead (protocol ++ body) = some body := by
  constructor
  · rw [protocolSlice, sliceAt, hp, if_pos (by rw [List.length_append]; omega),
      List.drop_zero, List.take_left]
  · rw [bodySlice, sliceAt, hp, hb, if_pos (Nat.le_of_eq List.length_append.symm),
      List.drop_left, List.take_length]

/-- The lengths that the client fills in are the true ones where they fit. -/
theorem narrowedSize_of_lt {str : Str} (h : str.length < 2 ^ 32) :
    (narrowedSize str).toNat = str.length := by
  rw [narrowedSize_toNat, Nat.mod_eq_of_lt h]

section SentFrame

variable (protocol : Str) (mode : CallMode) (body : Str) (remains : Remains requestHeaderLen)

/-- A header that is still there tells the lengths and the mode of a request that fits. -/
theorem says_kept (h : protocol.length + body.length < 2 ^ 32) :
    Says (sentHead protocol mode body .kept) protocol mode body := by
  have hhead := checkHead_sentHead protocol mode body
  refine ⟨?_, ?_, ?_⟩
  · have hword := congrArg RequestHeader.protocolLen hhead
    exact (congrArg UInt32.toNat hword).trans (narrowedSize_of_lt (by omega))
  · have hword := congrArg RequestHeader.bodyLen hhead
    exact (congrArg UInt32.toNat hword).trans (narrowedSize_of_lt (by omega))
  · exact congrArg (fun head => head.mode.value) hhead

variable {protocol mode body}

/-- A request that is received as it was sent had a header that said its lengths. -/
theorem says_of_received {c c' : Connection} (hr : c.reading = .head) (hopen : c.isOpen = true)
    {head : CharArray requestHeaderLen} (hv : (checkHead head).2 = true)
    (h : receive c (head.bytes ++ (protocol ++ body))
      = some (.route c' protocol body mode, [])) :
    protocol.length + body.length < 2 ^ 32 ∧ Says head protocol mode body := by
  obtain ⟨conn, hconn⟩ := receive_accepted hr hopen hv (protocol ++ body)
  rw [h] at hconn
  obtain ⟨⟨bytes, rest⟩, hread, hslices⟩ := Option.bind_eq_some_iff.mp hconn.symm
  obtain ⟨p, hp, hslices⟩ := Option.bind_eq_some_iff.mp hslices
  obtain ⟨q, hq, heq⟩ := Option.map_eq_some_iff.mp hslices
  cases heq
  refine ⟨?_, (length_of_slice hp).symm, (length_of_slice hq).symm, rfl⟩
  -- the body read took all that was sent behind the header
  obtain ⟨hle, hread⟩ := Option.dite_none_right_eq_some.mp hread
  have hnone := congrArg Prod.snd (Option.some.inj hread)
  have hall := List.drop_eq_nil_iff.mp hnone
  rw [List.length_append] at hall
  refine Nat.lt_of_le_of_lt hall ?_
  rw [length_resizeProtocolAndBody]
  exact Nat.mod_lt _ (by decide)

/-- A header that says the true lengths brings the request through. -/
theorem received_of_says {c : Connection} (hr : c.reading = .head) (hopen : c.isOpen = true)
    {head : CharArray requestHeaderLen} (hv : (checkHead head).2 = true)
    (hfits : protocol.length + body.length < 2 ^ 32) (h : Says head protocol mode body) :
    ∃ c', receive c (head.bytes ++ (protocol ++ body))
      = some (.route c' protocol body mode, []) := by
  obtain ⟨conn, hconn⟩ := receive_accepted hr hopen hv (protocol ++ body)
  have hp : (checkHead head).1.protocolLen.toNat = protocol.length := h.protocolLen
  have hb : (checkHead head).1.bodyLen.toNat = body.length := h.bodyLen
  have hmode : (checkHead head).1.mode = mode := congrArg CallMode.mk h.mode
  have hlen : (protocol ++ body).length = (resizeProtocolAndBody (checkHead head).1).length := by
    rw [length_resizeProtocolAndBody, hp, hb, Nat.mod_eq_of_lt hfits, List.length_append]
  have hread : readExactly (resizeProtocolAndBody (checkHead head).1).length
      (protocol ++ body ++ [])
      = some (⟨protocol ++ body, hlen⟩, []) := readExactly_append hlen
  rw [List.append_nil] at hread
  obtain ⟨hprotocol, hbody⟩ := slices_of_lengths hp hb
  refine ⟨conn (protocol ++ body), ?_⟩
  rw [hconn, hread]
  simp only [Option.bind_some, hprotocol, hbody, Option.map_some, hmode]

variable (protocol mode body)

/-- A request comes through where one end refuses it, or its header says its lengths. -/
theorem requestRoundTrips_iff_sent :
    RequestRoundTrips protocol mode body remains ↔
      8388608 < (protocol.length + body.length) % 2 ^ 32
      ∨ (checkHead (sentHead protocol mode body remains)).2 = false
      ∨ protocol.length + body.length < 2 ^ 32
        ∧ Says (sentHead protocol mode body remains) protocol mode body := by
  by_cases hbig : 8388608 < (protocol.length + body.length) % 2 ^ 32
  · refine iff_of_true ?_ (Or.inl hbig)
    intro buffers hw
    rw [write_eq, if_pos hbig] at hw
    cases hw
  · rw [or_iff_right hbig]
    obtain ⟨buffers, hw⟩ :
        ∃ buffers, RpcSession.write protocol mode body remains = .ok buffers := by
      rw [write_eq, if_neg hbig]
      exact ⟨_, rfl⟩
    have hflat := write_flatten protocol mode body remains hw
    have hread := readExactly_write protocol mode body remains hw
    constructor
    · intro h
      cases hv : (checkHead (sentHead protocol mode body remains)).2 with
      | false => exact Or.inl rfl
      | true =>
          obtain ⟨c', hc'⟩ := h buffers hw _ _ hread hv (Connection.create 0).start rfl rfl
          rw [hflat] at hc'
          exact Or.inr (says_of_received (c := (Connection.create 0).start) rfl rfl hv hc')
    · intro h buffers' hw' head rest hread' hv c hr hopen
      cases hw.symm.trans hw'
      cases hread.symm.trans hread'
      rcases h with hrefused | ⟨hfits, hsays⟩
      · exact absurd (hrefused.symm.trans hv) Bool.false_ne_true
      · rw [hflat]
        exact received_of_says hr hopen hv hfits hsays

/-- **REQUEST ROUND TRIP**: a request whose header is still there when it is read comes through
    unchanged exactly when its true length fits 32 bits, or one of the two ends refuses it by its
    narrowed length; where other bytes have come over the header, exactly when one of the ends
    refuses it, or these bytes say its mode and its true lengths. -/
theorem requestRoundTrips_iff :
    RequestRoundTrips protocol mode body remains ↔ RequestWhen protocol mode body remains := by
  rw [requestRoundTrips_iff_sent]
  cases remains with
  | kept =>
      rw [← Bool.not_eq_true, checkHead_kept, RequestWhen]
      constructor
      · rintro (h | h | ⟨h, -⟩) <;> omega
      · rintro (h | h | h)
        · exact Or.inr (Or.inr ⟨h, says_kept protocol mode body h⟩)
        · exact Or.inr (Or.inl (by omega))
        · exact Or.inr (Or.inl (by omega))
  | overwritten left => exact Iff.rfl

end SentFrame

/-- What may stand where the header of a request has been. -/
def strayHead : CharArray requestHeaderLen := ⟨[0, 0, 0, 0, 2, 0, 0, 0, 1, 0, 0, 0], rfl⟩

/-- A protocol name of `2 ^ 32 + 1` bytes goes out under a `protocol_len` of 1; the server takes
    its first byte for the whole name and leaves `2 ^ 32` bytes unread.  A call of `abc` on `de`
    whose header has been overwritten becomes one of the empty name on `ab`. -/
theorem long_protocol_cut :
    ¬ RequestRoundTrips (List.replicate (2 ^ 32 + 1) 0) CallMode.nonRaw [] .kept
    ∧ ¬ RequestRoundTrips [97, 98, 99] CallMode.nonRaw [100, 101] (.overwritten strayHead) := by
  constructor
  · rw [requestRoundTrips_iff, RequestWhen, List.length_replicate, List.length_nil]
    decide
  · rw [requestRoundTrips_iff]
    rintro (h | h | ⟨-, h⟩)
    · exact absurd h (by decide)
    · exact absurd h (by decide)
    · exact absurd h.protocolLen (by decide)

/-! ## Responses -/

/-- `memcpy(&res_head_, head_, sizeof(head_))`. -/
def ResponseHeader.ofBytes (head : CharArray responseHeaderLen) : ResponseHeader :=
  ⟨wordAt head.bytes 0⟩

namespace RpcSession

/-- `rpc_session::read_head` on a stream that is closed behind its last byte. -/
def readHead (stream : List UInt8) :
    Except String (CharArray responseHeaderLen × List UInt8) :=
  match readExactly responseHeaderLen stream with
  | some (head, stream) => .ok (head, stream)
  | none => .error "End of file"

/-- `rpc_session::check_head`. -/
def checkHead (head : CharArray responseHeaderLen) : Except String ResponseHeader :=
  let resHead := ResponseHeader.ofBytes head
  if resHead.bodyLen > maxBufferLen.toUInt32 then .error "Body len is too big" else .ok resHead

/-- `rpc_session::read_body`. -/
def readBody (resHead : ResponseHeader) (stream : List UInt8) :
    Except String (List UInt8 × List UInt8) :=
  match readExactly resHead.bodyLen.toNat stream with
  | some (body, stream) => .ok (body.bytes, stream)
  | none => .error "End of file"

/-- `rpc_session::read`: the body, with the rest of the stream. -/
def read (stream : List UInt8) : Except String (List UInt8 × List UInt8) :=
  match readHead stream with
  | .error message => .error message
  | .ok (head, stream) =>
      match checkHead head with
      | .error message => .error message
      | .ok resHead => readBody resHead stream

end RpcSession

/-- The header that goes out in front of a result. -/
def responseHead (result : Str) (remains : Remains responseHeaderLen) :
    CharArray responseHeaderLen :=
  remains.read (ResponseHeader.mk (narrowedSize result)).toArray

/-- The response frame of `connection::get_buffer`. -/
def responseFrame (result : Str) (remains : Remains responseHeaderLen) : List UInt8 :=
  (Connection.getBuffer ⟨narrowedSize result⟩ remains result).flatten

/-- Without I/O errors a result is either refused, with nothing sent, or it comes back from the
    client's read; and it is refused exactly above `max_buffer_len`. -/
def ResponseRoundTrips (result : Str) (remains : Remains responseHeaderLen) : Prop :=
  ∀ c : Connection, c.isOpen = true →
    (((∃ message, c.write result remains none = .error message)
        ∧ (c.respond (.ok result) remains none).sent = c.sent)
      ∨ ∃ c' frame, c.write result remains none = .ok c' ∧ c'.sent = c.sent ++ [frame]
        ∧ RpcSession.read frame = .ok (result, []))
    ∧ ((∃ message, c.write result remains none = .error message)
      ↔ maxBufferLen.toUInt32.toNat < result.length)

/-- The results that come back, or are refused for their true lengths: as long as the header is
    kept, those whose length fits its word, or is refused by its narrowed length as well; else
    those that are refused, or of which the bytes in the header's place happen to say the length. -/
def ResponseWhen (result : Str) : Remains responseHeaderLen → Prop
  | .kept => result.length < 2 ^ 32 ∨ 8388608 < result.length % 2 ^ 32
  | .overwritten left =>
      8388608 < result.length % 2 ^ 32 ∨ (wordAt left.bytes 0).toNat = result.length

/-- The limit check of either end, on a length that was narrowed. -/
theorem narrowedSize_gt_limit (result : Str) :
    narrowedSize result > maxBufferLen.toUInt32 ↔ 8388608 < result.length % 2 ^ 32 := by
  rw [gt_iff_lt, UInt32.lt_iff_toNat_lt, maxBufferLen_toNat, narrowedSize_toNat]

theorem responseFrame_eq (result : Str) (remains : Remains responseHeaderLen) :
    responseFrame result remains = (responseHead result remains).bytes ++ result := by
  simp only [responseFrame, responseHead, Connection.getBuffer, List.flatten_cons,
    List.flatten_nil, List.append_nil]

/-- The header that is kept says the narrowed length. -/
theorem responseHead_kept (result : Str) :
    wordAt (responseHead result .kept).bytes 0 = narrowedSize result :=
  ofNat_leValue_leBytes _

/-- What the server does with a result on an open socket. -/
theorem write_open {c : Connection} (hopen : c.isOpen = true) (result : Str)
    (remains : Remains responseHeaderLen) :
    c.write result remains none =
      if 8388608 < result.length % 2 ^ 32 then .error "Send data is too big"
      else .ok { c with sent := c.sent ++ [responseFrame result remains] } := by
  by_cases hbig : narrowedSize result > maxBufferLen.toUInt32
  · rw [Connection.write, if_pos hbig, if_pos ((narrowedSize_gt_limit result).mp hbig)]
  · rw [Connection.write, if_neg hbig, if_neg (mt (narrowedSize_gt_limit result).mpr hbig),
      Connection.writeImpl, hopen]
    rfl

/-- What the client makes of four bytes with a result behind them: it refuses them, or it cuts the
    result off at the length that they say, or it waits in vain. -/
theorem read_frame (head : CharArray responseHeaderLen) (result : Str) :
    RpcSession.read (head.bytes ++ result) =
      if 8388608 < (wordAt head.bytes 0).toNat then .error "Body len is too big"
      else if (wordAt head.bytes 0).toNat ≤ result.length then
        .ok (result.take (wordAt head.bytes 0).toNat, result.drop (wordAt head.bytes 0).toNat)
      else .error "End of file" := by
  have hhead : RpcSession.readHead (head.bytes ++ result) = .ok (head, result) := by
    rw [RpcSession.readHead, readExactly_append head.length_eq]
  have hword : ResponseHeader.ofBytes head = ⟨wordAt head.bytes 0⟩ := rfl
  have hlimit : wordAt head.bytes 0 > maxBufferLen.toUInt32 ↔
      8388608 < (wordAt head.bytes 0).toNat := by
    rw [gt_iff_lt, UInt32.lt_iff_toNat_lt, maxBufferLen_toNat]
  simp only [RpcSession.read, hhead, RpcSession.checkHead, hword, hlimit]
  by_cases hbig : 8388608 < (wordAt head.bytes 0).toNat
  · rw [if_pos hbig, if_pos hbig]
  · rw [if_neg hbig, if_neg hbig]
    simp only [RpcSession.readBody, readExactly]
    by_cases hle : (wordAt head.bytes 0).toNat ≤ result.length
    · rw [if_pos hle, dif_pos hle]
    · rw [if_neg hle, dif_neg hle]

/-- What a client makes of a response: the length decides. -/
theorem read_responseFrame (result : Str) (remains : Remains responseHeaderLen) :
    RpcSession.read (responseFrame result remains) =
      let len := (wordAt (responseHead result remains).bytes 0).toNat
      if 8388608 < len then .error "Body len is too big"
      else if len ≤ result.length then .ok (result.take len, result.drop len)
      else .error "End of file" := by
  rw [responseFrame_eq, read_frame]

/-- What is read back whole had its length in front of it. -/
theorem length_of_read {result : Str} {remains : Remains responseHeaderLen}
    (h : RpcSession.read (responseFrame result remains) = .ok (result, [])) :
    (wordAt (responseHead result remains).bytes 0).toNat = result.length := by
  rw [read_responseFrame] at h
  dsimp only at h
  split at h
  · exact nomatch h
  · split at h
    · rename_i hle
      have hdrop := congrArg Prod.snd (Except.ok.inj h)
      exact Nat.le_antisymm hle (List.drop_eq_nil_iff.mp hdrop)
    · exact nomatch h

section Result

variable (result : Str) (remains : Remains responseHeaderLen)

/-- A result comes back where the server refuses it, or its header says its length. -/
theorem responseRoundTrips_iff_sent :
    ResponseRoundTrips result remains ↔
      8388608 < result.length % 2 ^ 32
      ∨ (wordAt (responseHead result remains).bytes 0).toNat = result.length := by
  by_cases hbig : 8388608 < result.length % 2 ^ 32
  · -- refused: nothing is sent, and the true length is above the limit too
    refine iff_of_true ?_ (Or.inl hbig)
    intro c hopen
    have hlarge : 8388608 < result.length := Nat.lt_of_lt_of_le hbig (Nat.mod_le _ _)
    have hrespond : c.respond (.ok result) remains none = c.disconnect := by
      simp only [Connection.respond, write_open hopen, if_pos hbig]
    rw [write_open hopen, if_pos hbig, maxBufferLen_toNat]
    refine ⟨Or.inl ⟨⟨_, rfl⟩, ?_⟩, fun _ => hlarge, fun _ => ⟨_, rfl⟩⟩
    rw [hrespond, Connection.disconnect_sent]
  · rw [or_iff_right hbig]
    constructor
    · intro h
      obtain ⟨⟨⟨message, hmessage⟩, -⟩ | ⟨c', frame, hw, hsent, hread⟩, -⟩ :=
        h (Connection.create 0) rfl
      · rw [write_open rfl, if_neg hbig] at hmessage
        cases hmessage
      · rw [write_open rfl, if_neg hbig] at hw
        cases hw
        have hframe := List.append_cancel_left hsent
        cases hframe
        exact length_of_read hread
    · intro hsays c hopen
      have hlt : result.length < 2 ^ 32 := by
        rw [← hsays]
        exact UInt32.toNat_lt _
      rw [Nat.mod_eq_of_lt hlt] at hbig
      rw [write_open hopen, if_neg (by rwa [Nat.mod_eq_of_lt hlt]), maxBufferLen_toNat]
      refine ⟨Or.inr ⟨_, _, rfl, rfl, ?_⟩, ?_, fun hlarge => absurd hlarge hbig⟩
      · rw [read_responseFrame, hsays, if_neg hbig, if_pos (Nat.le_refl _), List.take_length,
          List.drop_length]
      · rintro ⟨message, hmessage⟩
        cases hmessage

/-- **RESPONSE ROUND TRIP**: a result whose header is still there when it is read is either refused
    for its true length, with nothing sent, or returned unchanged, exactly when its length fits 32
    bits or is refused by its narrowed length as well; where other bytes have come over the header,
    exactly when it is refused, or these bytes say its length. -/
theorem responseRoundTrips_iff :
    ResponseRoundTrips result remains ↔ ResponseWhen result remains := by
  rw [responseRoundTrips_iff_sent]
  cases remains with
  | kept =>
      rw [responseHead_kept, narrowedSize_toNat, ResponseWhen, or_comm]
      refine or_congr_left ?_
      constructor
      · intro h
        rw [← h]
        exact Nat.mod_lt _ (by decide)
      · exact Nat.mod_eq_of_lt
  | overwritten left => exact Iff.rfl

end Result

/-- A result of `2 ^ 32 + 5` bytes goes out under a `body_len` of 5, and the client returns five
    bytes of it.  From `xyz` behind a header that has been overwritten with zeros it returns
    nothing. -/
theorem long_result_cut :
    (¬ ResponseRoundTrips (List.replicate (2 ^ 32 + 5) 0) .kept
      ∧ RpcSession.read (responseFrame (List.replicate (2 ^ 32 + 5) 0) .kept)
        = .ok (List.replicate 5 0, List.replicate (2 ^ 32) 0))
    ∧ ¬ ResponseRoundTrips [120, 121, 122] (.overwritten (.zero 4))
    ∧ RpcSession.read (responseFrame [120, 121, 122] (.overwritten (.zero 4)))
      = .ok ([], [120, 121, 122]) := by
  refine ⟨⟨?_, ?_⟩, ?_, rfl⟩
  · rw [responseRoundTrips_iff, ResponseWhen, List.length_replicate]
    decide
  · have hmod : (2 ^ 32 + 5) % 2 ^ 32 = 5 := by decide
    rw [read_responseFrame, responseHead_kept, narrowedSize_toNat, List.length_replicate, hmod,
      if_neg (by decide), if_pos (by decide), List.take_replicate, List.drop_replicate,
      Nat.min_eq_left (by decide), Nat.add_sub_cancel]
  · rw [responseRoundTrips_iff]
    rintro (h | h)
    · exact absurd h (by decide)
    · exact absurd h (by decide)

end EasyRpcRoundTrip
