import EasyRpc.AddressProofs

/-! # An address used again — the string that `split` writes into

    `client::connect` and `server::listen` take their address by constant reference and hand it to
    `split`, which casts the constness away and lets `strtok_r` overwrite each delimiter that ends
    a token.  The next call on the same string object then reads it up to that NUL: of several
    tokens only the first is left (`split_again`), and for `listen` the colon is gone too.

    The string survives exactly where no delimiter follows a token (`split_keeps_iff`). -/

namespace EasyRpcAddressReuse

open Throwing EasyRpcStringUtil EasyRpcWire EasyRpcAddress Strtok

variable {Endpoints : Type}

/-- `client::connect(const std::string& address)`; `resolve` stands for the resolver. -/
def connect (resolve : Str → Str → Except Exn Endpoints) : Comp (Caller Endpoints) Unit :=
  splitAddress >>= fun token =>
    match token with
    | [ip, port] =>
        fromExcept (resolve ip port) >>= fun endpointIter =>
          update fun s => { s with target := endpointIter }
    | _ => fromExcept (.error (.std "Address format error"))

/-- The calls on an address. -/
inductive Call where
  | connect
  | listen

/-- The tokens that a call gets out of the caller's string, `none` where it does not split, and
    the string afterwards. -/
def Call.split : Call → StdString → Option (List Str) × StdString
  | .connect, address => (some (address.split colon).1, (address.split colon).2)
  | .listen, address =>
      if address.contains colon then (some (address.split colon).1, (address.split colon).2)
      else (none, address)

/-- What the calls of a sequence get, one after the other on the same string object. -/
def obtained : List Call → StdString → List (List Str)
  | [], _ => []
  | call :: calls, address =>
      (call.split address).1.toList ++ obtained calls (call.split address).2

/-- `split` leaves its input alone, and with it every call on an address the tokens of the
    first. -/
structure InputKept (str delimiter : StdString) : Prop where
  unchanged : (str.split delimiter).2 = str
  calls : delimiter = colon →
    ∀ calls, ∀ token ∈ obtained calls str, token = (str.split colon).1

/-! ## The string after a call -/

/-- What `connect` leaves of the string, whether it throws or not. -/
theorem connect_address (resolve : Str → Str → Except Exn Endpoints) (s : Caller Endpoints) :
    ((connect resolve).exec s).2.address = (Call.connect.split s.address).2 := by
  have hsplit : splitAddress.exec s = (.ok (s.address.split colon).1,
      { s with address := (s.address.split colon).2 }) := rfl
  rw [connect, exec_bind_ok hsplit]
  split
  · rename_i ip port _
    cases hr : resolve ip port with
    | ok endpointIter => rfl
    | error e => rfl
  · rfl

/-- `listen` of a host and a port leaves the caller's string alone. -/
theorem listenText_address (ip port : Str) (s : Caller Listener) :
    ((listenText ip port).exec s).2.address = s.address := by
  rw [listenText_exec]
  cases stoi port with
  | ok n => rfl
  | error e => rfl

theorem listenTokens_address (token : List Str) (s : Caller Listener) :
    ((listenTokens token).exec s).2.address = s.address := by
  unfold listenTokens
  split
  · split
    · exact listenText_address _ _ s
    · exact listenText_address _ _ s
  · rfl

/-- What `listen` leaves of the string, whether it throws or not. -/
theorem listen_address (s : Caller Listener) :
    (listen.exec s).2.address = (Call.listen.split s.address).2 := by
  rw [Call.split]
  by_cases hcolon : 58 ∈ s.address.bytes
  · rw [listen_of_colon hcolon, listenTokens_address, if_pos (contains_colon_iff.mpr hcolon)]
  · rw [listen_of_no_colon hcolon, listenText_address,
      if_neg (mt contains_colon_iff.mp hcolon)]

/-! ## Where the string is kept -/

theorem StdString.eq_of_bytes {s t : StdString} (h : s.bytes = t.bytes) : s = t := by
  cases s
  cases t
  cases h
  rfl

/-- A split leaves the string as it was exactly if it overwrites nothing. -/
theorem split_unchanged_iff (str delimiter : StdString) :
    (str.split delimiter).2 = str ↔ Uncut delimiter.delims str.bytes := by
  rw [← tokens_kept_iff]
  constructor
  · intro h
    exact congrArg StdString.bytes h
  · intro h
    exact StdString.eq_of_bytes h

/-- A second `split` of the same string finds no more than the first token. -/
theorem split_again (str delimiter : StdString) :
    ((str.split delimiter).2.split delimiter).1 = (str.split delimiter).1.take 1 :=
  tokens_again str.bytes

/-- A call that finds the string as the first one did gets the same tokens and leaves it. -/
theorem Call.split_of_unchanged {address : StdString} (h : (address.split colon).2 = address)
    (call : Call) :
    (call.split address).2 = address
      ∧ ∀ token ∈ (call.split address).1, token = (address.split colon).1 := by
  cases call with
  | connect =>
      refine ⟨h, ?_⟩
      rintro token ⟨⟩
      rfl
  | listen =>
      rw [Call.split]
      split
      · refine ⟨h, ?_⟩
        rintro token ⟨⟩
        rfl
      · exact ⟨rfl, nofun⟩

/-- A string that is left alone gives the same tokens to every later call. -/
theorem obtained_of_unchanged {address : StdString} (h : (address.split colon).2 = address)
    (calls : List Call) :
    ∀ token ∈ obtained calls address, token = (address.split colon).1 := by
  induction calls with
  | nil => exact nofun
  | cons call calls ih =>
      obtain ⟨hkept, hsame⟩ := Call.split_of_unchanged h call
      intro token htoken
      rw [obtained, hkept] at htoken
      rcases List.mem_append.mp htoken with hnow | hlater
      · exact hsame token (Option.mem_toList.mp hnow)
      · exact ih token hlater

/-- **SPLIT KEEPS ITS INPUT** exactly where no delimiter comes after a character that is not
    one. -/
theorem split_keeps_iff (str delimiter : StdString) :
    InputKept str delimiter ↔ Uncut delimiter.delims str.bytes := by
  rw [← split_unchanged_iff]
  constructor
  · intro h
    exact h.unchanged
  · intro h
    refine ⟨h, ?_⟩
    rintro rfl calls
    exact obtained_of_unchanged h calls

/-- An address as the documentation writes it. -/
def localAddress : StdString := ⟨ascii "localhost:50051", by decide⟩

/-- The second connect to `localhost:50051` finds `localhost` alone. -/
theorem second_connect_gets_host_only : ¬ ∀ str delimiter, InputKept str delimiter := by
  intro h
  have hobtained : obtained [.connect, .connect] localAddress
      = [[ascii "localhost", ascii "50051"], [ascii "localhost"]] := by decide +kernel
  have hsame := (h localAddress colon).calls rfl [.connect, .connect] [ascii "localhost"]
    (by rw [hobtained]; decide)
  exact absurd hsame (by decide +kernel)

end EasyRpcAddressReuse
