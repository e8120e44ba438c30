import EasyRpc.StringUtilProofs
import EasyRpc.StrtolProofs
import EasyRpc.ThrowingProofs
import Mathlib.Algebra.Group.Int.Defs

/-! # Addresses — what `listen` takes for one

    `server::listen(address)` looks for a colon, lets `split` cut the address into two tokens and
    reads the port with `std::stoi`, whose `int` a cast narrows to 16 bits.  Each stage takes more
    than the next one is meant for: `split` drops empty fields and ends at a NUL, `stoi` skips
    white space, takes a sign and ignores what comes behind the digits.

    `Loose` is what goes through (`accepted_iff`), `Grammar` what an address is meant to be; an
    address that is in the first and not in the second is taken all the same
    (`listen_grammar_iff`). -/

namespace EasyRpcAddress

open Throwing EasyRpcStringUtil EasyRpcWire Strtok Strtol

/-- The delimiter of host and port. -/
def colon : StdString := ⟨ascii ":", by decide⟩

/-- `std::stoi`; both its exceptions carry its name. -/
def stoi (str : Str) : Except Exn Int :=
  match strtol str with
  | none => .error (.std "stoi")
  | some n => if -2 ^ 31 ≤ n ∧ n < 2 ^ 31 then .ok n else .error (.std "stoi")

/-- A call on a string object: what the call works on, and the caller's string. -/
structure Caller (Target : Type) where
  target : Target
  address : StdString

/-- The address of a server. -/
structure Listener where
  ip : Str
  port : UInt16

section Caller

variable {Target : Type}

/-- The read of the caller's string: the argument is a reference. -/
def callerString : Comp (Caller Target) StdString := Comp.of fun s => (.ok s.address, s)

/-- `string_util::split` on the caller's string, whose delimiters it overwrites. -/
def splitAddress : Comp (Caller Target) (List Str) :=
  Comp.of fun s =>
    (.ok (s.address.split colon).1, { s with address := (s.address.split colon).2 })

end Caller

/-- `listen(const std::string& ip, unsigned short port)`. -/
def listenPort (ip : Str) (port : UInt16) : Comp (Caller Listener) Unit :=
  update fun s => { s with target := ⟨ip, port⟩ }

/-- `listen(const std::string& ip, const std::string& port)`. -/
def listenText (ip port : Str) : Comp (Caller Listener) Unit :=
  fromExcept (stoi port) >>= fun n => listenPort ip (UInt16.ofInt n)

/-- The two fields of an address. -/
def listenTokens : List Str → Comp (Caller Listener) Unit
  | [host, port] =>
      if equalsIgnoreCase host (ascii "localhost") then listenText (ascii "127.0.0.1") port
      else listenText host port
  | _ => fromExcept (.error (.std "Address format error"))

/-- `listen(const std::string& address)`. -/
def listen : Comp (Caller Listener) Unit :=
  callerString >>= fun address =>
    if address.contains colon then splitAddress >>= listenTokens
    else listenText (ascii "0.0.0.0") address.bytes

/-! ## What is meant, and what is taken -/

/-- The same letters, small or capital ones for each small one of `w`. -/
def AnyCase (s w : Str) : Prop := List.Forall₂ (fun b c => b = c ∨ b + 32 = c) s w

/-- The address to listen on for a host. -/
inductive HostIp : Str → Str → Prop where
  | localhost (host : Str) : AnyCase host (ascii "localhost") →
      HostIp host (ascii "127.0.0.1")
  | named (host : Str) : ¬ AnyCase host (ascii "localhost") → HostIp host host

/-- A decimal port number in range. -/
structure IsPort (p : Str) : Prop where
  nonempty : p ≠ []
  digits : Digits p
  value_le : value p ≤ 65535

/-- `P` or `H:P`, with the address and the port to listen on. -/
inductive Grammar : Str → Str → Nat → Prop where
  | port (p : Str) : IsPort p → Grammar p (ascii "0.0.0.0") (value p)
  | host (h p ip : Str) : h ≠ [] → 58 ∉ h → HostIp h ip → IsPort p →
      Grammar (h ++ 58 :: p) ip (value p)

/-- `listen` throws and keeps the address it had, or the string is an address and `listen` has
    taken it as such. -/
def ParsesAddress (s : Caller Listener) : Prop :=
  match listen.exec s with
  | (.error _, s') => s'.target = s.target
  | (.ok _, s') => Grammar s.address.bytes s'.target.ip s'.target.port.toNat

/-- The range of `int`. -/
def IsInt (n : Int) : Prop := -2 ^ 31 ≤ n ∧ n < 2 ^ 31

/-- What goes through `split` and `stoi`. -/
inductive Loose (a : Str) : Prop where
  | port (n : Int) : 58 ∉ a → Numeral a n → IsInt n → Loose a
  | host (h p : Str) (n : Int) : Pair colon.delims a h p → Numeral p n → IsInt n → Loose a

/-- Whatever the documented grammar accepts. -/
def Strict (a : Str) : Prop := ∃ ip port, Grammar a ip port

/-! ## The stages -/

/-- `stoi` accepts a number with anything after it, if it is an `int`. -/
theorem stoi_eq_ok_iff {str : Str} {n : Int} : stoi str = .ok n ↔ Numeral str n ∧ IsInt n := by
  rw [← strtol_eq_some_iff, stoi]
  cases hn : strtol str with
  | none => exact iff_of_false nofun (fun h => nomatch h.1)
  | some m =>
      constructor
      · intro h
        replace h : (if -2 ^ 31 ≤ m ∧ m < 2 ^ 31 then Except.ok m
          else .error (Exn.std "stoi")) = .ok n := h
        split at h
        · rename_i hint
          cases h
          exact ⟨rfl, hint⟩
        · exact nomatch h
      · rintro ⟨heq, hint⟩
        cases heq
        exact if_pos hint

theorem isDelim_colon_iff {c : UInt8} : colon.delims.isDelim c = true ↔ c = 58 := by
  show [58].contains c = true ↔ c = 58
  rw [List.contains_eq_any_beq, List.any_cons, List.any_nil, Bool.or_false, beq_iff_eq]

theorem contains_colon_iff {s : StdString} : s.contains colon = true ↔ 58 ∈ s.bytes := by
  rw [contains_iff]
  exact List.singleton_infix_iff 58 s.bytes

/-- Lower-casing meets a small letter from itself and from its capital. -/
theorem tolowerByte_eq_iff {b c : UInt8} (hc : 97 ≤ c.toNat ∧ c.toNat ≤ 122) :
    tolowerByte b = c ↔ b = c ∨ b + 32 = c := by
  have h65 : (65 : UInt8).toNat = 65 := rfl
  have h90 : (90 : UInt8).toNat = 90 := rfl
  have h32 : (32 : UInt8).toNat = 32 := rfl
  have hb := b.toNat_lt
  rw [tolowerByte, ← UInt8.toNat_inj, ← UInt8.toNat_inj, ← UInt8.toNat_inj, UInt8.toNat_add]
  split
  · rename_i hcap
    rw [Bool.and_eq_true, decide_eq_true_eq, decide_eq_true_eq, UInt8.le_iff_toNat_le,
      UInt8.le_iff_toNat_le] at hcap
    rw [UInt8.toNat_add]
    omega
  · rename_i hcap
    rw [Bool.and_eq_true, decide_eq_true_eq, decide_eq_true_eq, UInt8.le_iff_toNat_le,
      UInt8.le_iff_toNat_le] at hcap
    omega

/-- Two words agree in lower case exactly if they agree letter by letter in any case. -/
theorem tolower_eq_iff {w : Str} (hw : ∀ c ∈ w, 97 ≤ c.toNat ∧ c.toNat ≤ 122) (s : Str) :
    tolower s = w ↔ AnyCase s w := by
  induction s generalizing w with
  | nil =>
      cases w with
      | nil => exact iff_of_true rfl .nil
      | cons c w => exact iff_of_false nofun nofun
  | cons b s ih =>
      cases w with
      | nil => exact iff_of_false nofun nofun
      | cons c w =>
          obtain ⟨hc, hw⟩ := List.forall_mem_cons.mp hw
          rw [AnyCase, List.forall₂_cons, ← tolowerByte_eq_iff hc, ← AnyCase, ← ih hw]
          exact List.cons_eq_cons

/-- The comparison with `localhost` does not look at the case. -/
theorem equalsIgnoreCase_iff (h : Str) :
    equalsIgnoreCase h (ascii "localhost") = true ↔ AnyCase h (ascii "localhost") := by
  have hletters : ascii "localhost" = [108, 111, 99, 97, 108, 104, 111, 115, 116] := rfl
  have hlower : tolower (ascii "localhost") = ascii "localhost" := rfl
  have hsmall : ∀ c ∈ ascii "localhost", 97 ≤ c.toNat ∧ c.toNat ≤ 122 := by
    rw [hletters]
    simp
  rw [equalsIgnoreCase, hlower, beq_iff_eq]
  exact tolower_eq_iff hsmall h

/-! ## The strings that are taken -/

/-- The string goes through: what `listen` sets. -/
inductive Accepted (a : StdString) : Str → UInt16 → Prop where
  | port (n : Int) : 58 ∉ a.bytes → stoi a.bytes = .ok n →
      Accepted a (ascii "0.0.0.0") (UInt16.ofInt n)
  | host (h p ip : Str) (n : Int) : 58 ∈ a.bytes → (a.split colon).1 = [h, p] → HostIp h ip →
      stoi p = .ok n → Accepted a ip (UInt16.ofInt n)

/-- `listen` of a host and a port as text: what `stoi` throws is passed on. -/
theorem listenText_exec {ip p : Str} {s : Caller Listener} :
    (listenText ip p).exec s = match stoi p with
      | .ok n => (.ok (), { s with target := ⟨ip, UInt16.ofInt n⟩ })
      | .error e => (.error e, s) := by
  rw [listenText, exec_bind, exec_fromExcept]
  cases stoi p with
  | ok n => rfl
  | error e => rfl

/-- With two tokens the host is `localhost` in any case, or an address. -/
theorem listenTokens_pair (h p : Str) :
    ∃ ip, HostIp h ip ∧ listenTokens [h, p] = listenText ip p := by
  rw [listenTokens]
  split
  · rename_i hcase
    exact ⟨_, .localhost h ((equalsIgnoreCase_iff h).mp hcase), rfl⟩
  · rename_i hcase
    exact ⟨_, .named h (mt (equalsIgnoreCase_iff h).mpr hcase), rfl⟩

theorem listen_of_colon {s : Caller Listener} (h : 58 ∈ s.address.bytes) :
    listen.exec s = (listenTokens (s.address.split colon).1).exec
      { s with address := (s.address.split colon).2 } := by
  have hread : callerString.exec s = (.ok s.address, s) := rfl
  have hsplit : splitAddress.exec s = (.ok (s.address.split colon).1,
      { s with address := (s.address.split colon).2 }) := rfl
  rw [listen, exec_bind_ok hread, if_pos (contains_colon_iff.mpr h), exec_bind_ok hsplit]

theorem listen_of_no_colon {s : Caller Listener} (h : 58 ∉ s.address.bytes) :
    listen.exec s = (listenText (ascii "0.0.0.0") s.address.bytes).exec s := by
  have hread : callerString.exec s = (.ok s.address, s) := rfl
  rw [listen, exec_bind_ok hread, if_neg (mt contains_colon_iff.mp h)]

/-- `listen` either takes the string or throws, and then keeps the address it had. -/
theorem listen_cases (s : Caller Listener) :
    (∃ s', listen.exec s = (.ok (), s') ∧ Accepted s.address s'.target.ip s'.target.port)
    ∨ ((∀ ip port, ¬ Accepted s.address ip port)
      ∧ ∃ e s', listen.exec s = (.error e, s') ∧ s'.target = s.target) := by
  by_cases hcolon : 58 ∈ s.address.bytes
  · rw [listen_of_colon hcolon]
    by_cases htwo : ∃ h p, (s.address.split colon).1 = [h, p]
    · obtain ⟨h, p, htoken⟩ := htwo
      obtain ⟨ip, hip, heq⟩ := listenTokens_pair h p
      rw [htoken, heq, listenText_exec]
      cases hn : stoi p with
      | ok n => exact Or.inl ⟨_, rfl, .host h p ip n hcolon htoken hip hn⟩
      | error e =>
          refine Or.inr ⟨?_, e, _, rfl, rfl⟩
          rintro ip' port (⟨n, hno, -⟩ | ⟨h', p', -, n, -, htoken', -, hn'⟩)
          · exact hno hcolon
          · rw [htoken] at htoken'
            cases htoken'
            rw [hn] at hn'
            exact nomatch hn'
    · have hthrow : listenTokens (s.address.split colon).1
          = fromExcept (.error (.std "Address format error")) := by
        rw [listenTokens]
        exact fun h p hp => htwo ⟨h, p, hp⟩
      rw [hthrow]
      refine Or.inr ⟨?_, _, _, rfl, rfl⟩
      rintro ip port (⟨n, hno, -⟩ | ⟨h, p, -, n, -, htoken, -, -⟩)
      · exact hno hcolon
      · exact htwo ⟨h, p, htoken⟩
  · rw [listen_of_no_colon hcolon, listenText_exec]
    cases hn : stoi s.address.bytes with
    | ok n => exact Or.inl ⟨_, rfl, .port n hcolon hn⟩
    | error e =>
        refine Or.inr ⟨?_, e, _, rfl, rfl⟩
        rintro ip port (⟨n, -, hn'⟩ | ⟨h, p, -, n, hyes, -, -, -⟩)
        · rw [hn] at hn'
          exact nomatch hn'
        · exact hcolon hyes

theorem colon_mem_of_pair {a h p : Str} (hpair : Pair colon.delims a h p) : 58 ∈ a := by
  obtain ⟨before, -, between, -, after, rest, -, -, hne, hbetween, -, -, -⟩ := hpair
  obtain ⟨c, more, rfl⟩ := List.exists_cons_of_ne_nil hne
  obtain rfl := isDelim_colon_iff.mp (hbetween c List.mem_cons_self)
  exact List.mem_append_right _ (List.mem_append_right _ List.mem_cons_self)

/-- **WHAT IS TAKEN** is the loose grammar. -/
theorem accepted_iff (a : StdString) : (∃ ip port, Accepted a ip port) ↔ Loose a.bytes := by
  constructor
  · rintro ⟨ip, port, hacc⟩
    cases hacc with
    | port n hno hn =>
        obtain ⟨hnum, hint⟩ := stoi_eq_ok_iff.mp hn
        exact .port n hno hnum hint
    | host h p ip n hyes htoken hip hn =>
        obtain ⟨hnum, hint⟩ := stoi_eq_ok_iff.mp hn
        exact .host h p n (tokens_pair_iff.mp htoken) hnum hint
  · rintro (⟨n, hno, hnum, hint⟩ | ⟨h, p, n, hpair, hnum, hint⟩)
    · exact ⟨_, _, .port n hno (stoi_eq_ok_iff.mpr ⟨hnum, hint⟩)⟩
    · obtain ⟨ip, hip, -⟩ := listenTokens_pair h p
      exact ⟨_, _, .host h p ip n (colon_mem_of_pair hpair) (tokens_pair_iff.mpr hpair) hip
        (stoi_eq_ok_iff.mpr ⟨hnum, hint⟩)⟩

/-! ## Addresses that are meant to be taken -/

theorem IsPort.not_mem {p : Str} (h : IsPort p) {c : UInt8} (hc : isDigit c = false) : c ∉ p := by
  intro hmem
  have hdigit := h.digits c hmem
  rw [hc] at hdigit
  exact nomatch hdigit

/-- The port that `stoi` and the cast make of its digits. -/
theorem IsPort.toNat_eq {p : Str} (h : IsPort p) {n : Int} (hn : stoi p = .ok n) :
    (UInt16.ofInt n).toNat = value p := by
  have hvalue : n = value p := by
    have hnum := strtol_eq_some_iff.mpr (stoi_eq_ok_iff.mp hn).1
    rw [strtol_eq_some_iff.mpr (numeral_of_digits h.nonempty h.digits)] at hnum
    exact (Option.some.inj hnum).symm
  have hle := h.value_le
  rw [hvalue]
  show ((value p : Int) % 2 ^ 16).toNat % 2 ^ 16 = value p
  omega

/-- A host and a port with a colon between them are the two tokens. -/
theorem pair_eq_of_port {host port h p : Str} (hcolon : 58 ∉ host) (hne : host ≠ [])
    (hport : IsPort port) (hpair : Pair colon.delims (host ++ 58 :: port) h p) :
    host = h ∧ port = p := by
  generalize ha : host ++ 58 :: port = a at hpair
  obtain ⟨before, _, between, _, after, rest, hbefore, hh, hbetween, hdelims, hp, hafter,
    hended⟩ := hpair
  obtain ⟨c, ds, rfl⟩ := List.exists_cons_of_ne_nil hbetween
  have hnone : ∀ l : Str, AllDelims colon.delims l → 58 ∉ l → l = [] := by
    intro l hl hno
    cases l with
    | nil => rfl
    | cons c l =>
        have hc := isDelim_colon_iff.mp (hl c List.mem_cons_self)
        exact absurd (hc ▸ List.mem_cons_self) hno
  have hb : before = [] := by
    cases before with
    | nil => rfl
    | cons b before =>
        cases host with
        | nil => exact absurd rfl hne
        | cons c host =>
            have hhead : c = b := (List.cons.inj ha).1
            have hb58 := isDelim_colon_iff.mp (hbefore b List.mem_cons_self)
            exact absurd (hb58 ▸ hhead ▸ List.mem_cons_self) hcolon
  subst hb
  have hc58 := isDelim_colon_iff.mp (hdelims c List.mem_cons_self)
  subst hc58
  have hno := hport.not_mem (c := 58) rfl
  replace ha : host ++ 58 :: port = h ++ 58 :: (ds ++ (p ++ (after ++ rest))) := ha
  obtain ⟨rfl, -, rfl⟩ := (List.append_cons_inj_of_notMem hcolon hno).mp ha
  have hds := hnone ds (fun c hc => hdelims c (List.mem_cons_of_mem _ hc))
    (fun hc => hno (List.mem_append_left _ hc))
  subst hds
  have haf := hnone after hafter (fun hc => hno
    (List.mem_append_right _ (List.mem_append_right _ (List.mem_append_left _ hc))))
  subst haf
  rcases hended with rfl | ⟨rest, rfl⟩
  · exact ⟨rfl, List.append_nil _⟩
  · exact absurd (List.mem_append_right _ List.mem_cons_self) (hport.not_mem (c := 0) rfl)

/-- An address that is taken is taken as such. -/
theorem grammar_of_accepted {a : StdString} {ip : Str} {port : UInt16} (hstrict : Strict a.bytes)
    (hacc : Accepted a ip port) : Grammar a.bytes ip port.toNat := by
  obtain ⟨ip', port', hg⟩ := hstrict
  generalize ha : a.bytes = bytes at hg
  cases hg with
  | port p hport =>
      subst ha
      have hno := hport.not_mem (c := 58) rfl
      cases hacc with
      | port n _ hn =>
          rw [hport.toNat_eq hn]
          exact .port _ hport
      | host h p ip n hyes => exact absurd hyes hno
  | host host p ip' hne hcolon hip' hport =>
      cases hacc with
      | port n hno =>
          rw [ha] at hno
          exact absurd (List.mem_append_right _ List.mem_cons_self) hno
      | host h p' ip n hyes htoken hip hn =>
          have hpair := tokens_pair_iff.mp htoken
          rw [ha] at hpair
          obtain ⟨rfl, rfl⟩ := pair_eq_of_port hcolon hne hport hpair
          rw [hport.toNat_eq hn]
          exact .host host p ip hne hcolon hip hport

/-- **LISTEN TAKES ADDRESSES** exactly where the loose grammar has nothing to add to the strict
    one. -/
theorem listen_grammar_iff (s : Caller Listener) :
    ParsesAddress s ↔ (Loose s.address.bytes → Strict s.address.bytes) := by
  rw [ParsesAddress]
  rcases listen_cases s with ⟨s', hexec, hacc⟩ | ⟨hno, e, s', hexec, hkept⟩
  · rw [hexec]
    constructor
    · intro hg _
      exact ⟨_, _, hg⟩
    · intro h
      exact grammar_of_accepted (h ((accepted_iff s.address).mp ⟨_, _, hacc⟩)) hacc
  · rw [hexec]
    refine iff_of_true hkept ?_
    intro hloose
    obtain ⟨ip, port, hacc⟩ := (accepted_iff s.address).mpr hloose
    exact absurd hacc (hno ip port)

/-- `70000` is taken as port 4464. -/
theorem listen_takes_70000 : ¬ ∀ s, ParsesAddress s := by
  intro h
  obtain ⟨s, haddr⟩ : ∃ s : Caller Listener, s.address.bytes = ascii "70000" :=
    ⟨⟨⟨ascii "0.0.0.0", 50051⟩, ⟨ascii "70000", by decide⟩⟩, rfl⟩
  have hno : 58 ∉ s.address.bytes := by
    rw [haddr]
    decide
  have hstoi : stoi (ascii "70000") = .ok 70000 := rfl
  have hport : (UInt16.ofInt 70000).toNat = 4464 := rfl
  have hg := h s
  rw [ParsesAddress, listen_of_no_colon hno, listenText_exec, haddr, hstoi] at hg
  dsimp only at hg
  rw [hport] at hg
  generalize ha : ascii "70000" = a at hg
  generalize hcast : 4464 = port at hg
  cases hg with
  | port p hp =>
      subst ha
      exact absurd hcast (by decide)
  | host host p ip =>
      have hmem : 58 ∈ ascii "70000" := by
        rw [ha]
        exact List.mem_append_right _ List.mem_cons_self
      exact absurd hmem (by decide)

end EasyRpcAddress
