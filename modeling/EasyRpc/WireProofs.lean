import Mathlib.Algebra.Group.Nat.Defs

/-! # The wire format — headers, size checks and slices on both ends

    A request is a 12 byte header (`protocol_len`, `body_len`, `mode`, each a 32-bit unsigned
    word) followed by the protocol name and the body; a response is a 4 byte `body_len` followed
    by the body.  Each end narrows `size_t` lengths to 32 bits and adds them with wrap-around, and
    each end has its own size check:

    * the client rejects `protocol_len + body_len > max_buffer_len` (`RpcSession.write`);
    * the server accepts `0 < protocol_len + body_len < max_buffer_len` (`checkHead`), allocates
      a buffer of the same wrapped sum and cuts two slices out of it by the unwrapped lengths.

    Neither end writes the header that it has filled in: `get_buffer` keeps the address of a
    temporary that is gone when `write_impl` reads what stands there (`Remains`).

    The two results: the slices lie inside the buffer exactly when the sum does not wrap
    (`slicesInBuffer_iff`), and the ends agree exactly off the two sums `0` and
    `max_buffer_len` if the header is still there, and else where the bytes in its place happen to
    be a header that the server accepts (`endsAgree_iff`).

    Words are little-endian, least significant byte first (`ByteOrder`). -/

namespace ByteOrder

/-- The `n` low bytes of `v`, least significant first. -/
def leBytes : Nat → Nat → List UInt8
  | 0, _ => []
  | n + 1, v => UInt8.ofNat v :: leBytes n (v / 256)

/-- The value of a byte list, least significant first. -/
def leValue : List UInt8 → Nat
  | [] => 0
  | b :: bs => b.toNat + 256 * leValue bs

@[simp] theorem length_leBytes (n v : Nat) : (leBytes n v).length = n := by
  induction n generalizing v with
  | zero => rfl
  | succ n ih =>
      show (leBytes n (v / 256)).length + 1 = n + 1
      rw [ih]

/-- Reading back what was written gives the value modulo the width. -/
theorem leValue_leBytes (n v : Nat) : leValue (leBytes n v) = v % 256 ^ n := by
  induction n generalizing v with
  | zero =>
      show 0 = v % 1
      exact (Nat.mod_one v).symm
  | succ n ih =>
      have hb : (UInt8.ofNat v).toNat = v % 256 := UInt8.toNat_ofNat
      show (UInt8.ofNat v).toNat + 256 * leValue (leBytes n (v / 256)) = v % 256 ^ (n + 1)
      rw [hb, ih, Nat.pow_succ, Nat.mul_comm (256 ^ n) 256, Nat.mod_mul]

/-- A value that fits the width is read back unchanged. -/
theorem leValue_leBytes_of_lt {n v : Nat} (h : v < 256 ^ n) :
    leValue (leBytes n v) = v := by
  rw [leValue_leBytes, Nat.mod_eq_of_lt h]

end ByteOrder

namespace EasyRpcWire

open ByteOrder

/-- The bytes of a `std::string`. -/
abbrev Str := List UInt8

/-- `constexpr const int max_buffer_len`. -/
def maxBufferLen : Int32 := 8 * 1024 * 1024

/-- `request_header_len`. -/
def requestHeaderLen : Nat := 12

/-- `response_header_len`. -/
def responseHeaderLen : Nat := 4

/-- `enum class call_mode : unsigned int`: the wire may carry any 32-bit value. -/
structure CallMode where
  value : UInt32
  deriving DecidableEq

/-- `call_mode::raw`. -/
def CallMode.raw : CallMode := ⟨0⟩

/-- `call_mode::non_raw`. -/
def CallMode.nonRaw : CallMode := ⟨1⟩

/-- `request_header`, three words of 32 bits. -/
structure RequestHeader where
  protocolLen : UInt32
  bodyLen : UInt32
  mode : CallMode
  deriving DecidableEq

/-- `response_header`. -/
structure ResponseHeader where
  bodyLen : UInt32
  deriving DecidableEq

/-- A `char[n]` member: exactly `n` bytes. -/
structure CharArray (n : Nat) where
  bytes : List UInt8
  length_eq : bytes.length = n

/-- An array that holds zeros. -/
def CharArray.zero (n : Nat) : CharArray n := ⟨List.replicate n 0, List.length_replicate⟩

/-- What stands where a header of `n` bytes stood.  The header that `get_buffer` takes the address
    of is a temporary of the statement that calls it, and `write_impl` reads the bytes at that
    address in the next statement: the header's, if nothing has come over them, or any others. -/
inductive Remains (n : Nat) where
  | kept
  | overwritten (bytes : CharArray n)

/-- The bytes that are read for the header `head`. -/
def Remains.read {n : Nat} : Remains n → CharArray n → CharArray n
  | .kept, head => head
  | .overwritten bytes, _ => bytes

/-- Nothing has come over the header. -/
def Remains.isKept {n : Nat} : Remains n → Bool
  | .kept => true
  | .overwritten _ => false

theorem Remains.eq_kept {n : Nat} {remains : Remains n} (h : remains.isKept = true) :
    remains = .kept := by
  cases remains with
  | kept => rfl
  | overwritten bytes => cases h

/-- The 32-bit word at a byte offset. -/
def wordAt (bytes : List UInt8) (offset : Nat) : UInt32 :=
  UInt32.ofNat (leValue ((bytes.drop offset).take 4))

/-- `memcpy(&req_head_, head_, sizeof(head_))`. -/
def RequestHeader.ofBytes (head : CharArray requestHeaderLen) : RequestHeader :=
  ⟨wordAt head.bytes 0, wordAt head.bytes 4, ⟨wordAt head.bytes 8⟩⟩

/-- The bytes behind `boost::asio::buffer(&head, sizeof(request_header))`. -/
def RequestHeader.toBytes (head : RequestHeader) : List UInt8 :=
  leBytes 4 head.protocolLen.toNat ++ leBytes 4 head.bodyLen.toNat
    ++ leBytes 4 head.mode.value.toNat

theorem RequestHeader.length_toBytes (head : RequestHeader) :
    head.toBytes.length = requestHeaderLen := by
  simp only [RequestHeader.toBytes, List.length_append, length_leBytes, requestHeaderLen]

/-- The header as the object in memory that its address points to. -/
def RequestHeader.toArray (head : RequestHeader) : CharArray requestHeaderLen :=
  ⟨head.toBytes, head.length_toBytes⟩

/-- The bytes behind `boost::asio::buffer(&head, sizeof(response_header))`. -/
def ResponseHeader.toArray (head : ResponseHeader) : CharArray responseHeaderLen :=
  ⟨leBytes 4 head.bodyLen.toNat, length_leBytes 4 _⟩

/-- A written word is read back. -/
theorem ofNat_leValue_leBytes (w : UInt32) :
    UInt32.ofNat (leValue (leBytes 4 w.toNat)) = w := by
  rw [leValue_leBytes_of_lt (show w.toNat < 256 ^ 4 from w.toNat_lt)]
  exact UInt32.ofNat_toNat

/-- **HEADER ROUND TRIP**: the bytes of a header decode to its fields. -/
theorem RequestHeader.ofBytes_toArray (head : RequestHeader) :
    RequestHeader.ofBytes head.toArray = head := by
  have h0 : (head.toBytes.drop 0).take 4 = leBytes 4 head.protocolLen.toNat := rfl
  have h4 : (head.toBytes.drop 4).take 4 = leBytes 4 head.bodyLen.toNat := rfl
  have h8 : (head.toBytes.drop 8).take 4 = leBytes 4 head.mode.value.toNat := rfl
  show (⟨wordAt head.toBytes 0, wordAt head.toBytes 4, ⟨wordAt head.toBytes 8⟩⟩
    : RequestHeader) = head
  simp only [wordAt, h0, h4, h8, ofNat_leValue_leBytes]

/-- `boost::asio::read` and `async_read` on a buffer of `n` bytes: the first `n` bytes of the
    stream, or not yet complete. -/
def readExactly (n : Nat) (stream : List UInt8) : Option (CharArray n × List UInt8) :=
  if h : n ≤ stream.length then
    some (⟨stream.take n, by rw [List.length_take, Nat.min_eq_left h]⟩, stream.drop n)
  else none

/-- A stream that starts with `n` given bytes yields them and leaves the rest. -/
theorem readExactly_append {n : Nat} {bytes rest : List UInt8} (h : bytes.length = n) :
    readExactly n (bytes ++ rest) = some (⟨bytes, h⟩, rest) := by
  subst h
  have hle : bytes.length ≤ (bytes ++ rest).length := by
    rw [List.length_append]
    exact Nat.le_add_right _ _
  rw [readExactly, dif_pos hle]
  simp only [List.take_left, List.drop_left]

/-! ## The client's request -/

/-- `static_cast<unsigned int>(str.size())`. -/
def narrowedSize (str : Str) : UInt32 := UInt32.ofNat str.length

/-- `rpc_session::get_buffer`: the three buffers that are gathered into one write, with what is
    left of the header when they are read. -/
def RpcSession.getBuffer (head : RequestHeader) (remains : Remains requestHeaderLen)
    (protocol body : Str) : List (List UInt8) :=
  [(remains.read head.toArray).bytes, protocol, body]

/-- `rpc_session::write` up to the socket: the buffers handed to `write_impl`, or the text of
    the exception. -/
def RpcSession.write (protocol : Str) (mode : CallMode) (body : Str)
    (remains : Remains requestHeaderLen) : Except String (List (List UInt8)) :=
  let protocolLen := narrowedSize protocol
  let bodyLen := narrowedSize body
  if protocolLen + bodyLen > maxBufferLen.toUInt32 then
    .error "Send data is too big"
  else
    .ok (RpcSession.getBuffer ⟨protocolLen, bodyLen, mode⟩ remains protocol body)

/-! ## The server's request -/

/-- `connection::check_head`: the decoded header and the verdict on its lengths. -/
def checkHead (head : CharArray requestHeaderLen) : RequestHeader × Bool :=
  let reqHead := RequestHeader.ofBytes head
  let len := reqHead.protocolLen + reqHead.bodyLen
  (reqHead, if len > 0 && len < maxBufferLen.toUInt32 then true else false)

/-- `protocol_and_body_.clear(); protocol_and_body_.resize(protocol_len + body_len)`. -/
def resizeProtocolAndBody (reqHead : RequestHeader) : List UInt8 :=
  List.replicate (reqHead.protocolLen + reqHead.bodyLen).toNat 0

/-- `std::string(&buffer[offset], len)`, undefined where it reads past the buffer. -/
def sliceAt (buffer : List UInt8) (offset len : Nat) : Option Str :=
  if offset + len ≤ buffer.length then some ((buffer.drop offset).take len) else none

/-- The protocol argument of the route call. -/
def protocolSlice (reqHead : RequestHeader) (buffer : List UInt8) : Option Str :=
  sliceAt buffer 0 reqHead.protocolLen.toNat

/-- The body argument of the route call. -/
def bodySlice (reqHead : RequestHeader) (buffer : List UInt8) : Option Str :=
  sliceAt buffer reqHead.protocolLen.toNat reqHead.bodyLen.toNat

theorem length_resizeProtocolAndBody (reqHead : RequestHeader) :
    (resizeProtocolAndBody reqHead).length
      = (reqHead.protocolLen.toNat + reqHead.bodyLen.toNat) % 2 ^ 32 := by
  rw [resizeProtocolAndBody, List.length_replicate, UInt32.toNat_add]

theorem maxBufferLen_toNat : maxBufferLen.toUInt32.toNat = 8388608 := by decide

/-- The server's verdict on the wrapped sum. -/
theorem checkHead_iff (head : CharArray requestHeaderLen) :
    (checkHead head).2 = true ↔
      0 < ((checkHead head).1.protocolLen.toNat + (checkHead head).1.bodyLen.toNat) % 2 ^ 32
      ∧ ((checkHead head).1.protocolLen.toNat + (checkHead head).1.bodyLen.toNat) % 2 ^ 32
        < 8388608 := by
  rw [← maxBufferLen_toNat, ← UInt32.toNat_add]
  simp only [checkHead, Bool.if_false_right, Bool.and_true, Bool.and_eq_true,
    decide_eq_true_eq, gt_iff_lt, UInt32.lt_iff_toNat_lt, UInt32.toNat_zero]

/-- What the slices of an accepted header need: the unbounded sum of the lengths within the
    allocated buffer and below the limit, and with it both slices inside the buffer. -/
def SlicesInBuffer (head : CharArray requestHeaderLen) : Prop :=
  (checkHead head).2 = true →
    let reqHead := (checkHead head).1
    let buffer := resizeProtocolAndBody reqHead
    reqHead.protocolLen.toNat + reqHead.bodyLen.toNat ≤ buffer.length
    ∧ (protocolSlice reqHead buffer).isSome = true
    ∧ (bodySlice reqHead buffer).isSome = true
    ∧ reqHead.protocolLen.toNat + reqHead.bodyLen.toNat < maxBufferLen.toUInt32.toNat

theorem sliceAt_isSome {buffer : List UInt8} {offset len : Nat} :
    (sliceAt buffer offset len).isSome = true ↔ offset + len ≤ buffer.length := by
  rw [sliceAt]
  by_cases h : offset + len ≤ buffer.length
  · rw [if_pos h]
    exact ⟨fun _ => h, fun _ => rfl⟩
  · rw [if_neg h]
    exact ⟨fun hf => (nomatch hf), fun hf => absurd hf h⟩

/-- **SLICE BOUNDS**: the buffer of an accepted header contains its slices exactly when the two
    lengths add up without wrapping. -/
theorem slicesInBuffer_iff (head : CharArray requestHeaderLen) :
    SlicesInBuffer head ↔
      (checkHead head).1.protocolLen.toNat + (checkHead head).1.bodyLen.toNat < 2 ^ 32
      ∨ (checkHead head).2 = false := by
  have hlen := length_resizeProtocolAndBody (checkHead head).1
  have hacc := checkHead_iff head
  constructor
  · intro h
    cases hv : (checkHead head).2 with
    | false => exact Or.inr rfl
    | true =>
        obtain ⟨hsum, -, -, -⟩ := h hv
        rw [hlen] at hsum
        exact Or.inl (Nat.lt_of_le_of_lt hsum (Nat.mod_lt _ (by decide)))
  · intro h hv
    have hno : (checkHead head).1.protocolLen.toNat + (checkHead head).1.bodyLen.toNat
        < 2 ^ 32 := by
      rcases h with hlt | hrej
      · exact hlt
      · rw [hrej] at hv
        exact nomatch hv
    obtain ⟨-, hmax⟩ := hacc.mp hv
    rw [Nat.mod_eq_of_lt hno] at hmax hlen
    have hfit := Nat.le_of_eq hlen.symm
    refine ⟨hfit, sliceAt_isSome.mpr ?_, sliceAt_isSome.mpr hfit, ?_⟩
    · rw [hlen, Nat.zero_add]
      exact Nat.le_add_right _ _
    · rw [maxBufferLen_toNat]
      exact hmax

/-- A header whose lengths wrap to one: the sum `0xFFFFFFFF + 2` is accepted, and one byte is
    allocated for two slices of `0xFFFFFFFF` and `2` bytes. -/
def wrappingHead : CharArray requestHeaderLen :=
  ⟨[255, 255, 255, 255, 2, 0, 0, 0, 1, 0, 0, 0], rfl⟩

/-- Two lengths whose sum wraps are accepted, and the slices leave the buffer. -/
theorem wrappingHead_out_of_bounds :
    (checkHead wrappingHead).2 = true
    ∧ (resizeProtocolAndBody (checkHead wrappingHead).1).length = 1
    ∧ ¬ SlicesInBuffer wrappingHead := by
  have hv : (checkHead wrappingHead).2 = true := by decide
  have hlen : (resizeProtocolAndBody (checkHead wrappingHead).1).length = 1 := by decide
  refine ⟨hv, hlen, ?_⟩
  intro h
  obtain ⟨hsum, -, -, -⟩ := h hv
  rw [hlen] at hsum
  exact absurd hsum (by decide)

/-! ## Which requests the two ends call legal -/

/-- The header that the client fills in for a request. -/
def filledHead (protocol : Str) (mode : CallMode) (body : Str) : RequestHeader :=
  ⟨narrowedSize protocol, narrowedSize body, mode⟩

/-- The header that goes out in front of the request. -/
def sentHead (protocol : Str) (mode : CallMode) (body : Str)
    (remains : Remains requestHeaderLen) : CharArray requestHeaderLen :=
  remains.read (filledHead protocol mode body).toArray

/-- The request is rejected by the client for its size, or the header that reaches the server
    is accepted there. -/
def EndsAgree (protocol : Str) (mode : CallMode) (body : Str)
    (remains : Remains requestHeaderLen) : Prop :=
  ∀ buffers, RpcSession.write protocol mode body remains = .ok buffers →
    ∃ head rest, readExactly requestHeaderLen buffers.flatten = some (head, rest)
      ∧ (checkHead head).2 = true

/-- The requests that both ends call legal, or the client does not send: as long as the header is
    kept, those off the two ends of the server's range; else those whose place in memory happens to
    hold two lengths within it. -/
def AgreeWhen (protocol body : Str) : Remains requestHeaderLen → Prop
  | .kept =>
      (protocol.length + body.length) % 2 ^ 32 ≠ 0
      ∧ (protocol.length + body.length) % 2 ^ 32 ≠ 8388608
  | .overwritten left =>
      8388608 < (protocol.length + body.length) % 2 ^ 32
      ∨ 0 < wordAt left.bytes 0 + wordAt left.bytes 4
        ∧ wordAt left.bytes 0 + wordAt left.bytes 4 < maxBufferLen.toUInt32

section Sent

variable (protocol : Str) (mode : CallMode) (body : Str) (remains : Remains requestHeaderLen)

/-- The sum that both size checks look at. -/
theorem narrowedSize_add :
    (narrowedSize protocol + narrowedSize body).toNat
      = (protocol.length + body.length) % 2 ^ 32 := by
  rw [UInt32.toNat_add, narrowedSize, narrowedSize, UInt32.toNat_ofNat', UInt32.toNat_ofNat',
    ← Nat.add_mod]

/-- A header that is still there is decoded as it was sent, accepted or not. -/
theorem checkHead_sentHead :
    (checkHead (sentHead protocol mode body .kept)).1
      = ⟨narrowedSize protocol, narrowedSize body, mode⟩ :=
  RequestHeader.ofBytes_toArray _

/-- The server's verdict on a header that it gets as the client filled it in. -/
theorem checkHead_kept :
    (checkHead (sentHead protocol mode body .kept)).2 = true ↔
      0 < (protocol.length + body.length) % 2 ^ 32
      ∧ (protocol.length + body.length) % 2 ^ 32 < 8388608 := by
  rw [checkHead_iff, checkHead_sentHead, ← UInt32.toNat_add, narrowedSize_add]

/-- The client rejects a request exactly above the limit. -/
theorem write_eq :
    RpcSession.write protocol mode body remains =
      if 8388608 < (protocol.length + body.length) % 2 ^ 32 then
        .error "Send data is too big"
      else
        .ok [(sentHead protocol mode body remains).bytes, protocol, body] := by
  rw [← narrowedSize_add, ← maxBufferLen_toNat]
  rfl

/-- A frame that leaves the client is a header with both strings behind it. -/
theorem write_flatten {buffers : List (List UInt8)}
    (h : RpcSession.write protocol mode body remains = .ok buffers) :
    buffers.flatten = (sentHead protocol mode body remains).bytes ++ (protocol ++ body) := by
  rw [write_eq] at h
  split at h
  · exact nomatch h
  · cases h
    simp only [List.flatten_cons, List.flatten_nil, List.append_nil]

/-- What the server reads first is the header that went out. -/
theorem readExactly_write {buffers : List (List UInt8)}
    (h : RpcSession.write protocol mode body remains = .ok buffers) :
    readExactly requestHeaderLen buffers.flatten
      = some (sentHead protocol mode body remains, protocol ++ body) := by
  rw [write_flatten _ _ _ _ h]
  exact readExactly_append (sentHead protocol mode body remains).length_eq

/-- The ends agree where the client refuses to send, or the server accepts what goes out. -/
theorem endsAgree_iff_sent :
    EndsAgree protocol mode body remains ↔
      8388608 < (protocol.length + body.length) % 2 ^ 32
      ∨ (checkHead (sentHead protocol mode body remains)).2 = true := by
  by_cases hbig : 8388608 < (protocol.length + body.length) % 2 ^ 32
  · refine iff_of_true ?_ (Or.inl hbig)
    intro buffers hw
    rw [write_eq, if_pos hbig] at hw
    exact nomatch hw
  · rw [or_iff_right hbig]
    constructor
    · intro h
      obtain ⟨buffers, hw⟩ :
          ∃ buffers, RpcSession.write protocol mode body remains = .ok buffers := by
        rw [write_eq, if_neg hbig]
        exact ⟨_, rfl⟩
      obtain ⟨head, rest, hread, hv⟩ := h _ hw
      rw [readExactly_write _ _ _ _ hw] at hread
      cases hread
      exact hv
    · intro hv buffers hw
      exact ⟨_, _, readExactly_write _ _ _ _ hw, hv⟩

/-- **AGREEMENT**: the client and the server agree on a request whose header is still there when
    it is read exactly when the narrowed sum of its lengths is neither zero nor the limit itself;
    where other bytes have come over the header, exactly when the client refuses the request or
    these bytes hold lengths that the server accepts. -/
theorem endsAgree_iff : EndsAgree protocol mode body remains ↔ AgreeWhen protocol body remains := by
  rw [endsAgree_iff_sent]
  cases remains with
  | kept =>
      rw [checkHead_kept, AgreeWhen]
      omega
  | overwritten left =>
      refine or_congr_right ?_
      have hsum := checkHead_iff left
      rw [← UInt32.toNat_add, ← maxBufferLen_toNat] at hsum
      exact hsum

end Sent

/-- A request of exactly `max_buffer_len` bytes and the empty request leave the client and are
    refused by the server, with their headers as they were filled in. -/
theorem limit_and_empty_request_refused :
    ¬ EndsAgree (List.replicate 8388608 0) CallMode.nonRaw [] .kept
    ∧ ¬ EndsAgree [] CallMode.raw [] .kept := by
  rw [endsAgree_iff, endsAgree_iff, AgreeWhen, AgreeWhen, List.length_replicate]
  exact ⟨fun h => h.2 rfl, fun h => h.1 rfl⟩

end EasyRpcWire
