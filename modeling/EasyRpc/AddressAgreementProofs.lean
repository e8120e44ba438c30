import EasyRpc.AddressReuseProofs

/-! # One address, two ends — what `listen` and `connect` make of it

    A server and its clients are given the same address, the one for `listen` and the others for
    `connect`, as one text or with the host and the port apart, and the port as a text or as a
    number: `connect` prints a number with `std::to_string`, `listen` reads a text with
    `std::stoi`.

    A port that is printed and read again is the same port (`stoi_toString`), so all the forms of
    an address mean one thing.  Whatever the text is, the two ends find the same host and port in
    it, or `connect` throws, and `listen` takes it for a port at most (`one_address_two_ends`). -/

namespace EasyRpcAddressAgreement

open Throwing EasyRpcStringUtil EasyRpcWire EasyRpcAddress EasyRpcAddressReuse Strtok Strtol

/-- `std::to_string`. -/
def toString (n : Nat) : Str := ascii n.repr

section Overloads

variable {Endpoints : Type}

/-- `client::connect(const std::string& ip, const std::string& port)`. -/
def connectText (resolve : Str → Str → Except Exn Endpoints) (ip port : Str) :
    Comp (Caller Endpoints) Unit :=
  fromExcept (resolve ip port) >>= fun endpointIter =>
    update fun s => { s with target := endpointIter }

/-- `client::connect(const std::string& ip, unsigned short port)`. -/
def connectPort (resolve : Str → Str → Except Exn Endpoints) (ip : Str) (port : UInt16) :
    Comp (Caller Endpoints) Unit :=
  connectText resolve ip (toString port.toNat)

end Overloads

/-- `server::listen(unsigned short port)`. -/
def listenAny (port : UInt16) : Comp (Caller Listener) Unit := listenPort (ascii "0.0.0.0") port

/-! ## A port as a text -/

/-- A decimal digit as a byte. -/
theorem digit_byte {c : Char} (h : c.isDigit = true) :
    isDigit c.val.toUInt8 = true ∧ digitValue c.val.toUInt8 = c.toNat - '0'.toNat := by
  rw [Char.isDigit, Bool.and_eq_true, decide_eq_true_eq, decide_eq_true_eq] at h
  have hlow : 48 ≤ c.val.toNat := UInt32.le_iff_toNat_le.mp h.1
  have hhigh : c.val.toNat ≤ 57 := UInt32.le_iff_toNat_le.mp h.2
  have hbyte : c.val.toUInt8.toNat = c.val.toNat := by
    rw [UInt32.toNat_toUInt8]
    omega
  refine ⟨?_, ?_⟩
  · have h48 : (48 : UInt8).toNat = 48 := rfl
    have h57 : (57 : UInt8).toNat = 57 := rfl
    rw [isDigit, Bool.and_eq_true, decide_eq_true_eq, decide_eq_true_eq, UInt8.le_iff_toNat_le,
      UInt8.le_iff_toNat_le, hbyte, h48, h57]
    exact ⟨hlow, hhigh⟩
  · rw [digitValue, hbyte]
    rfl

/-- The characters that `std::to_string` writes. -/
theorem toString_eq (n : Nat) :
    toString n = (Nat.toDigits 10 n).map fun c => c.val.toUInt8 := by
  rw [toString, ascii, Nat.toList_repr]

theorem digits_toString (n : Nat) : Digits (toString n) := by
  rw [toString_eq]
  intro c hc
  obtain ⟨d, hd, rfl⟩ := List.mem_map.mp hc
  exact (digit_byte (Nat.isDigit_of_mem_toDigits (by decide) (by decide) hd)).1

theorem toString_ne_nil (n : Nat) : toString n ≠ [] := by
  rw [toString_eq]
  exact mt List.map_eq_nil_iff.mp Nat.toDigits_ne_nil

/-- Reading the digits back gives the number they write. -/
theorem foldl_digits {cs : List Char} (h : ∀ c ∈ cs, c.isDigit = true) (init : Nat) :
    (cs.map fun c => c.val.toUInt8).foldl (fun n c => 10 * n + digitValue c) init
      = Nat.ofDigitChars 10 cs init := by
  induction cs generalizing init with
  | nil => exact Nat.ofDigitChars_nil.symm
  | cons c cs ih =>
      obtain ⟨hc, hcs⟩ := List.forall_mem_cons.mp h
      rw [List.map_cons, List.foldl_cons, Nat.ofDigitChars_cons, (digit_byte hc).2]
      exact ih hcs _

/-- What is printed has the value it was printed from. -/
theorem value_toString (n : Nat) : value (toString n) = n := by
  rw [toString_eq, value, foldl_digits, Nat.ofDigitChars_ten_toDigits]
  intro c hc
  exact Nat.isDigit_of_mem_toDigits (by decide) (by decide) hc

theorem isPort_toString (port : UInt16) : IsPort (toString port.toNat) := by
  have hlt := port.toNat_lt
  refine ⟨toString_ne_nil _, digits_toString _, ?_⟩
  rw [value_toString]
  omega

/-- **PRINTED AND READ AGAIN** a port is the same. -/
theorem stoi_toString (port : UInt16) : stoi (toString port.toNat) = .ok (port.toNat : Int) := by
  have hlt := port.toNat_lt
  have hport := isPort_toString port
  have hnum := numeral_of_digits hport.nonempty hport.digits
  rw [value_toString] at hnum
  exact stoi_eq_ok_iff.mpr ⟨hnum, by omega, by omega⟩

/-- Reading a port that was written in decimal gives this port. -/
theorem listenText_toString (ip : Str) (port : UInt16) :
    listenText ip (toString port.toNat) = listenPort ip port := by
  have hport : UInt16.ofInt (port.toNat : Int) = port := by
    rw [← UInt16.toNat_inj, (isPort_toString port).toNat_eq (stoi_toString port), value_toString]
  rw [listenText, stoi_toString, fromExcept_ok_bind, hport]

/-! ## The fields of an address -/

theorem isToken_of_not_mem {l : Str} (hne : l ≠ []) (hcolon : 58 ∉ l) (hnul : 0 ∉ l) :
    IsToken colon.delims l := by
  refine ⟨hne, fun c hc => ?_⟩
  have hdelim : colon.delims.isDelim c = false := by
    rw [← Bool.not_eq_true, isDelim_colon_iff]
    rintro rfl
    exact hcolon hc
  have hend : (c != colon.delims.nul) = true := by
    rw [bne_iff_ne]
    rintro rfl
    exact hnul hc
  rw [inToken, hdelim, hend]
  rfl

/-- A host and a port with a colon between them are two fields. -/
theorem pair_of_port {host port : Str} (hne : host ≠ []) (hcolon : 58 ∉ host) (hnul : 0 ∉ host)
    (hport : IsPort port) : Pair colon.delims (host ++ 58 :: port) host port := by
  have hhost := isToken_of_not_mem hne hcolon hnul
  have htoken := isToken_of_not_mem hport.nonempty (hport.not_mem (c := 58) rfl)
    (hport.not_mem (c := 0) rfl)
  have hbetween : AllDelims colon.delims [58] :=
    List.forall_mem_singleton.mpr (isDelim_colon_iff.mpr rfl)
  have h := Pair.mk [] host [58] port [] [] nofun hhost nofun hbetween htoken nofun (Or.inl rfl)
  rw [List.append_nil, List.append_nil] at h
  exact h

/-! ## The two ends -/

/-- The two ends do with the address what they do with a host and a port given apart: `listenAt`
    the one with the IP address of the host, `connectTo` the other. -/
structure Meet (address : StdString) (host : Str) (listenAt : Str → Comp (Caller Listener) Unit)
    (connectTo : (Endpoints : Type) → (Str → Str → Except Exn Endpoints) →
      Comp (Caller Endpoints) Unit) : Prop where
  listens : ∀ s : Caller Listener, s.address = address → ∃ ip, HostIp host ip
    ∧ listen.exec s = (listenAt ip).exec { s with address := (address.split colon).2 }
  connects : ∀ {Endpoints : Type} (resolve : Str → Str → Except Exn Endpoints)
    (s : Caller Endpoints), s.address = address → (connect resolve).exec s
      = (connectTo Endpoints resolve).exec { s with address := (address.split colon).2 }

/-- The client's end does not take the address, and the server's takes it for a port at most. -/
structure NoHost (address : StdString) : Prop where
  connects : ∀ {Endpoints : Type} (resolve : Str → Str → Except Exn Endpoints)
    (s : Caller Endpoints), s.address = address →
      ((connect resolve).exec s).1 = .error (.std "Address format error")
  listens : ∀ s : Caller Listener, s.address = address →
    listen.exec s = (listenText (ascii "0.0.0.0") address.bytes).exec s
    ∨ (listen.exec s).1 = .error (.std "Address format error")

/-- `connect` with one string: exactly two tokens, or an error. -/
theorem connect_exec {Endpoints : Type} (resolve : Str → Str → Except Exn Endpoints)
    (s : Caller Endpoints) :
    (connect resolve).exec s = (match (s.address.split colon).1 with
      | [ip, port] => connectText resolve ip port
      | _ => fromExcept (.error (.std "Address format error"))).exec
        { s with address := (s.address.split colon).2 } := by
  have hsplit : splitAddress.exec s = (.ok (s.address.split colon).1,
      { s with address := (s.address.split colon).2 }) := rfl
  rw [connect, exec_bind_ok hsplit]
  rfl

theorem meet_of_pair {address : StdString} {host port : Str}
    (hpair : Pair colon.delims address.bytes host port) :
    Meet address host (listenText · port) fun _ resolve => connectText resolve host port := by
  have htoken : (address.split colon).1 = [host, port] := tokens_pair_iff.mpr hpair
  constructor
  · rintro s rfl
    obtain ⟨ip, hip, heq⟩ := listenTokens_pair host port
    refine ⟨ip, hip, ?_⟩
    rw [listen_of_colon (colon_mem_of_pair hpair), htoken, heq]
  · rintro Endpoints resolve s rfl
    rw [connect_exec, htoken]

/-- Where the address is no pair, the client is refused, and the server has no host of its own. -/
theorem noHost_of_no_pair {address : StdString}
    (hno : ∀ host port, ¬ Pair colon.delims address.bytes host port) : NoHost address := by
  have htoken : ∀ host port, (address.split colon).1 ≠ [host, port] :=
    fun host port h => hno host port (tokens_pair_iff.mp h)
  constructor
  · rintro Endpoints resolve s rfl
    rw [connect_exec]
    split
    · exact absurd ‹_› (htoken _ _)
    · rfl
  · rintro s rfl
    by_cases hcolon : 58 ∈ s.address.bytes
    · refine Or.inr ?_
      rw [listen_of_colon hcolon, listenTokens]
      · rfl
      · exact htoken
    · exact Or.inl (listen_of_no_colon hcolon)

/-- **ONE ADDRESS, TWO ENDS**: the server and the client find the same host and port in an
    address, or the client finds none in it and the server no more than a port.  A host and the
    digits of a port with a colon between them mean to both what the host and the port as a number
    do; the digits alone are that port for the server. -/
theorem one_address_two_ends (address : StdString) :
    (∀ host port, Pair colon.delims address.bytes host port →
      Meet address host (listenText · port) fun _ resolve => connectText resolve host port)
    ∧ ((∀ host port, ¬ Pair colon.delims address.bytes host port) → NoHost address)
    ∧ (∀ host (port : UInt16), host ≠ [] → 58 ∉ host → 0 ∉ host →
        address.bytes = host ++ 58 :: toString port.toNat →
        Meet address host (listenPort · port) fun _ resolve => connectPort resolve host port)
    ∧ ∀ port : UInt16, address.bytes = toString port.toNat → NoHost address
        ∧ ∀ s : Caller Listener, s.address = address →
            listen.exec s = (listenAny port).exec s := by
  refine ⟨fun host port => meet_of_pair, noHost_of_no_pair, ?_, ?_⟩
  · intro host port hne hcolon hnul haddress
    have hpair := pair_of_port hne hcolon hnul (isPort_toString port)
    rw [← haddress] at hpair
    have hmeet := meet_of_pair hpair
    simp only [listenText_toString] at hmeet
    exact hmeet
  · intro port haddress
    have hno : 58 ∉ address.bytes := by
      rw [haddress]
      exact (isPort_toString port).not_mem rfl
    refine ⟨noHost_of_no_pair fun host p hpair => hno (colon_mem_of_pair hpair), ?_⟩
    rintro s rfl
    rw [listen_of_no_colon hno, haddress, listenText_toString, listenAny]

/-- `localhost:50051` is host `localhost` and port 50051 for both. -/
theorem one_address_two_ends_localhost :
    Meet localAddress (ascii "localhost") (listenPort · 50051)
      fun _ resolve => connectPort resolve (ascii "localhost") 50051 :=
  (one_address_two_ends localAddress).2.2.1 (ascii "localhost") 50051 (by decide) (by decide)
    (by decide) (by decide +kernel)

end EasyRpcAddressAgreement
