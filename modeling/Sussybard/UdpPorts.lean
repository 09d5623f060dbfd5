import Sussybard.General.Text
import Sussybard.CliParser
import Sussybard.Udp

/-!
# The ports of a sender and a receiver

`--udp-sink` names a host and a port, behind the last colon, that `getaddrinfo`
looks up; `--udp-source` names a port that `strtoul` reads in base zero, and that
`bind` replaces by any that is free if it is 0. The two read most texts alike, but
not those that start with a zero, which are octal to `strtoul`.
-/

namespace Sussybard

open Text

/-- The address families that matter. -/
inductive AddressFamily where
  | inet
  | other
  deriving DecidableEq, Repr

/-- `sockaddr_in` -/
structure SockaddrIn where
  /-- `sin_family` -/
  sinFamily : AddressFamily := .other
  /-- The two bytes of `sin_port`, as they lie in memory. -/
  sinPort : UInt8 × UInt8 := (0, 0)
  /-- `sin_addr.s_addr` -/
  sinAddr : UInt32 := 0
  deriving DecidableEq, Repr

/-- The bytes of `htons(port)` in memory: the most significant one comes first. -/
def htons (port : UInt16) : UInt8 × UInt8 := ((port >>> 8).toUInt8, port.toUInt8)

/-- An entry of the list that `getaddrinfo` makes. -/
structure AddrInfo where
  /-- `ai_family` -/
  aiFamily : AddressFamily
  /-- `ai_addrlen` -/
  aiAddrlen : ℕ
  /-- `ai_addr`, as far as it is read as a `sockaddr_in`. -/
  aiAddr : SockaddrIn
  deriving DecidableEq, Repr

/-- What the socket library answers to the calls of one `init`. -/
structure SocketApi where
  /-- `init_socket_api` -/
  initSocketApi : Bool
  /-- `getaddrinfo`; no list where it returns an error. -/
  getaddrinfo : List Char → List Char → Option (List AddrInfo)
  /-- `socket`; nothing where it returns `INVALID_SOCKET`. -/
  socket : Option ℕ
  /-- `setsockopt` -/
  setsockopt : Int32
  /-- `bind` -/
  bind : Int32
  /-- The address that a socket has after `bind` to this one. -/
  boundTo : SockaddrIn → SockaddrIn

/-- The members of `UDPSink`. -/
structure UDPSink where
  /-- `fd` -/
  fd : Option ℕ := none
  /-- `addr` -/
  addr : SockaddrIn := {}
  deriving DecidableEq, Repr

/-- `UDPSink::init`, where `sizeof(addr)` is 16. -/
def UDPSink.init (api : SocketApi) (sink : UDPSink) (server : String) : Bool × UDPSink :=
  match splitLast ':' server.toList with
  | none => (false, sink)
  | some (hostname, port) =>
    if !api.initSocketApi then (false, sink)
    else
      match api.getaddrinfo hostname port with
      | none => (false, sink)
      | some lookup =>
        match lookup.find? fun iter => iter.aiFamily = .inet ∧ iter.aiAddrlen = 16 with
        | none => (false, sink)
        | some iter => (api.socket.isSome, { fd := api.socket, addr := iter.aiAddr })

/-- The member of `MIDISourceUDP`, and the address that its socket has. -/
structure MIDISourceUDP where
  /-- `fd` -/
  fd : Option ℕ := none
  /-- The address that the socket has after `bind`. -/
  bound : Option SockaddrIn := none
  deriving DecidableEq, Repr

/-- `strtoul(text, nullptr, 0)`: a number that is too large becomes `ULONG_MAX`. -/
def LongWidth.strtoul (long : LongWidth) (text : String) : ℕ :=
  match Text.scan text.toList with
  | none => 0
  | some (negative, magnitude) =>
    if magnitude < 2 ^ long.bits then
      if negative then (2 ^ long.bits - magnitude) % 2 ^ long.bits else magnitude
    else 2 ^ long.bits - 1

/-- `MIDISourceUDP::init` -/
def MIDISourceUDP.init (long : LongWidth) (api : SocketApi) (source : MIDISourceUDP)
    (client : String) : Bool × MIDISourceUDP :=
  if client = "" then (false, source)
  else
    let port := UInt16.ofNat (long.strtoul client)
    if !api.initSocketApi then (false, source)
    else
      match api.socket with
      | none => (false, { source with fd := none })
      | some fd =>
        let addr : SockaddrIn := { sinPort := htons port, sinFamily := .inet, sinAddr := 0 }
        if api.setsockopt < 0 then (false, { source with fd := some fd })
        else if api.bind < 0 then (false, { source with fd := some fd })
        else (true, { fd := some fd, bound := some (api.boundTo addr) })

/-- What `getaddrinfo` promises of a port that is written in decimal. -/
def SocketApi.ReadsPorts (api : SocketApi) : Prop :=
  ∀ hostname port lookup, port ≠ [] → (∀ c ∈ port, isDigit 10 c) → value 10 port < 2 ^ 16 →
    api.getaddrinfo hostname port = some lookup →
    ∀ entry ∈ lookup, entry.aiFamily = .inet →
      entry.aiAddr.sinPort = htons (UInt16.ofNat (value 10 port))

/-- What `bind` promises: the socket gets the address that it was asked for, but for port 0, in
place of which it gets a port that is free. -/
structure SocketApi.Binds (api : SocketApi) : Prop where
  sinFamily : ∀ addr, (api.boundTo addr).sinFamily = addr.sinFamily
  sinAddr : ∀ addr, (api.boundTo addr).sinAddr = addr.sinAddr
  sinPort : ∀ addr, addr.sinPort ≠ htons 0 → (api.boundTo addr).sinPort = addr.sinPort
  anyPort : ∀ addr, addr.sinPort = htons 0 → (api.boundTo addr).sinPort ≠ htons 0

/-! ### Ports as words -/

/-- Ports with the same bytes are the same. -/
theorem htons_inj {p q : UInt16} (h : htons p = htons q) : p = q := by
  have hhigh := congrArg UInt8.toNat (Prod.mk.inj h).1
  have hlow := congrArg UInt8.toNat (Prod.mk.inj h).2
  have hshift : ∀ w : UInt16, (w >>> 8).toNat = w.toNat / 256 := fun w => by
    rw [UInt16.toNat_shiftRight, Nat.shiftRight_eq_div_pow]
    rfl
  have hp := p.toNat_lt
  have hq := q.toNat_lt
  rw [UInt16.toNat_toUInt8, UInt16.toNat_toUInt8, hshift, hshift] at hhigh
  rw [UInt16.toNat_toUInt8, UInt16.toNat_toUInt8] at hlow
  apply UInt16.toNat_inj.mp
  omega

/-- Both widths of `long` are wider than a port, so what is read is read modulo `2 ^ 16`. -/
theorem LongWidth.negate_port (long : LongWidth) {magnitude : ℕ}
    (hfits : magnitude < 2 ^ long.bits) :
    (((2 ^ long.bits - magnitude) % 2 ^ long.bits % 2 ^ 16 : ℕ) : ℤ) =
      -(magnitude : ℤ) % 2 ^ 16 := by
  have hdvd : 2 ^ 16 ∣ 2 ^ long.bits := by cases long <;> decide
  rw [Nat.mod_mod_of_dvd _ hdvd]
  obtain ⟨k, hk⟩ := hdvd
  rw [hk] at hfits ⊢
  omega

/-- The port of a text that starts with a constant. -/
theorem LongWidth.strtoul_of_starts (long : LongWidth) {text : String} {negative : Bool}
    {magnitude : ℕ} (hstarts : Starts text.toList negative magnitude) :
    long.strtoul text =
      if magnitude < 2 ^ long.bits then
        if negative then (2 ^ long.bits - magnitude) % 2 ^ long.bits else magnitude
      else 2 ^ long.bits - 1 := by
  rw [LongWidth.strtoul, (scan_eq_some_iff _ _ _).mpr hstarts]

/-- What a call of `init` that returns true has asked `bind` for. -/
theorem MIDISourceUDP.init_bound {long : LongWidth} {api : SocketApi} {client : String}
    {start source : MIDISourceUDP}
    (hinit : MIDISourceUDP.init long api start client = (true, source)) :
    source.bound =
      some (api.boundTo ⟨.inet, htons (UInt16.ofNat (long.strtoul client)), 0⟩) := by
  unfold MIDISourceUDP.init at hinit
  cases hsocket : api.socket with
  | none =>
    simp only [hsocket] at hinit
    split_ifs at hinit
    · cases hinit
    · cases hinit
    · cases hinit
  | some fd =>
    simp only [hsocket] at hinit
    split_ifs at hinit
    · cases hinit
    · cases hinit
    · cases hinit
    · cases hinit
    · rw [← (Prod.mk.inj hinit).2]

/-- What a call of `init` that returns true has looked up. -/
theorem UDPSink.init_spec {api : SocketApi} {start sink : UDPSink} {server : String}
    (hinit : UDPSink.init api start server = (true, sink)) :
    ∃ hostname port lookup entry, server.toList = hostname ++ ':' :: port ∧ ':' ∉ port ∧
      api.getaddrinfo hostname port = some lookup ∧ entry ∈ lookup ∧
      entry.aiFamily = .inet ∧ sink.addr = entry.aiAddr := by
  unfold UDPSink.init at hinit
  cases hsplit : splitLast ':' server.toList with
  | none =>
    rw [hsplit] at hinit
    cases hinit
  | some split =>
    obtain ⟨hostname, port⟩ := split
    obtain ⟨hserver, hport⟩ := splitLast_eq_some_iff.mp hsplit
    rw [hsplit] at hinit
    simp only at hinit
    split_ifs at hinit
    · cases hinit
    cases hlookup : api.getaddrinfo hostname port with
    | none =>
      rw [hlookup] at hinit
      cases hinit
    | some lookup =>
      rw [hlookup] at hinit
      simp only at hinit
      cases hentry : lookup.find? fun iter => iter.aiFamily = .inet ∧ iter.aiAddrlen = 16 with
      | none =>
        rw [hentry] at hinit
        cases hinit
      | some entry =>
        rw [hentry] at hinit
        have hfound := List.find?_some hentry
        rw [decide_eq_true_eq] at hfound
        exact ⟨hostname, port, lookup, entry, hserver, hport, hlookup,
          List.mem_of_find?_eq_some hentry, hfound.1, by rw [← (Prod.mk.inj hinit).2]⟩

/-- A host that is looked up as an IPv6 address and an IPv4 address. -/
def localhostApi : SocketApi where
  initSocketApi := true
  getaddrinfo _ port := some [⟨.other, 28, {}⟩,
    ⟨.inet, 16, ⟨.inet, htons (UInt16.ofNat (value 10 port)), 0x0100007f⟩⟩]
  socket := some 3
  setsockopt := 0
  bind := 0
  boundTo addr := if addr.sinPort = htons 0 then { addr with sinPort := htons 49152 } else addr

/-- It gives sockets the addresses that they ask for. -/
theorem localhostApi_binds : localhostApi.Binds where
  sinFamily addr := by
    simp only [localhostApi]
    split_ifs <;> rfl
  sinAddr addr := by
    simp only [localhostApi]
    split_ifs <;> rfl
  sinPort addr hport := congrArg SockaddrIn.sinPort (if_neg hport)
  anyPort addr hport := by
    have hgiven : (localhostApi.boundTo addr).sinPort = htons 49152 :=
      congrArg SockaddrIn.sinPort (if_pos hport)
    rw [hgiven]
    decide

/-- The source reads a port that is written in decimal as it stands, unless it starts with a
zero. -/
theorem strtoul_port_iff (long : LongWidth) {port : String} (hne : port.toList ≠ [])
    (hdigits : ∀ c ∈ port.toList, isDigit 10 c) (hvalue : value 10 port.toList < 2 ^ 16) :
    UInt16.ofNat (long.strtoul port) = UInt16.ofNat (value 10 port.toList) ↔
      (port.toList.head? = some '0' → value 10 port.toList < 8) := by
  have hwide : ∀ v, v < 2 ^ 16 → v < 2 ^ long.bits := by
    cases long
    · exact fun v hv => hv.trans (by decide)
    · exact fun v hv => hv.trans (by decide)
  by_cases hzero : port.toList.head? = some '0'
  · have hle := value_octal_le port.toList
    have hoctal := hle.trans_lt hvalue
    rw [LongWidth.strtoul, scan_octal hdigits hzero]
    simp only [if_pos (hwide _ hoctal), Bool.false_eq_true, if_false]
    rw [imp_iff_right hzero, ← value_octal_eq_decimal_iff, ← UInt16.toNat_inj,
      UInt16.toNat_ofNat_of_lt' hoctal, UInt16.toNat_ofNat_of_lt' hvalue]
  · rw [LongWidth.strtoul, scan_decimal hne hdigits hzero]
    simp only [if_pos (hwide _ hvalue), Bool.false_eq_true, if_false]
    exact iff_of_true trivial fun h => absurd h hzero

/-- **Both ends mean the same port, but for leading zeros.** When a sink is set up for a host and
a port in decimal, and a source for the same text of the port: if the source has read a port that is
not 0, the sink sends to the port that the source listens on if and only if the text does not start
with a zero or the port is less than 8. For port 0 it never does: the source listens on some other
port. -/
theorem udp_ports_agree_iff {long : LongWidth} {sinkApi sourceApi : SocketApi}
    (hports : sinkApi.ReadsPorts) (hbinds : sourceApi.Binds) {host port : String} (hne : port ≠ "")
    (hdigits : ∀ c ∈ port.toList, isDigit 10 c) (hvalue : value 10 port.toList < 2 ^ 16)
    {sink : UDPSink} {source : MIDISourceUDP}
    (hsink : UDPSink.init sinkApi {} (host ++ ":" ++ port) = (true, sink))
    (hsource : MIDISourceUDP.init long sourceApi {} port = (true, source)) :
    (UInt16.ofNat (long.strtoul port) ≠ 0 →
        (source.bound.map SockaddrIn.sinPort = some sink.addr.sinPort ↔
          (port.toList.head? = some '0' → value 10 port.toList < 8))) ∧
      (value 10 port.toList = 0 →
        source.bound.map SockaddrIn.sinPort ≠ some sink.addr.sinPort) := by
  have hne' : port.toList ≠ [] := by simpa using hne
  obtain ⟨hostname, port', lookup, entry, hserver, hport', hlookup, hentry, hinet, haddr⟩ :=
    UDPSink.init_spec hsink
  -- the last colon is the one in front of the port
  have hsplit : (hostname, port') = (host.toList, port.toList) := by
    apply Option.some.inj
    rw [← splitLast_eq_some_iff.mpr ⟨hserver, hport'⟩, splitLast_eq_some_iff]
    refine ⟨by simp, fun hmem => ?_⟩
    exact absurd (hdigits ':' hmem) (by decide)
  obtain ⟨rfl, rfl⟩ := Prod.mk.inj hsplit
  have hread := strtoul_port_iff long hne' hdigits hvalue
  rw [MIDISourceUDP.init_bound hsource, haddr,
    hports _ _ _ hne' hdigits hvalue hlookup entry hentry hinet, Option.map_some]
  constructor
  · intro hsome
    rw [hbinds.sinPort _ fun h => hsome (htons_inj h), Option.some.injEq, ← hread]
    exact ⟨fun h => htons_inj h, congrArg htons⟩
  · intro hzero hagree
    have hsame := hread.mpr fun _ => by omega
    rw [hzero] at hsame hagree
    exact hbinds.anyPort _ (congrArg htons hsame) (Option.some.inj hagree)

/-- It reads decimal ports as decimal ports. -/
theorem localhostApi_readsPorts : localhostApi.ReadsPorts := by
  rintro hostname port lookup - - - hlookup entry hentry hinet
  obtain rfl := Option.some.inj hlookup
  simp only [List.mem_cons, List.not_mem_nil, or_false] at hentry
  rcases hentry with rfl | rfl
  · cases hinet
  · rfl

/-- The sink sends to port 777 and the source listens on port 511; and nothing that is sent to port
0 arrives. -/
theorem udp_ports_agree_iff_zero :
    (MIDISourceUDP.init .bits64 localhostApi {} "0777").2.bound.map SockaddrIn.sinPort ≠
        some (UDPSink.init localhostApi {} "localhost:0777").2.addr.sinPort ∧
      (MIDISourceUDP.init .bits64 localhostApi {} "0").2.bound.map SockaddrIn.sinPort ≠
        some (UDPSink.init localhostApi {} "localhost:0").2.addr.sinPort := by
  have hall : "0777".toList.all (isDigit 10) = true ∧ "0".toList.all (isDigit 10) = true := by
    decide
  constructor
  · intro hagree
    have hports := (udp_ports_agree_iff localhostApi_readsPorts localhostApi_binds (by decide)
      (List.all_eq_true.mp hall.1) (by decide)
      (show UDPSink.init localhostApi {} ("localhost" ++ ":" ++ "0777") = (true, _) from rfl)
      (show MIDISourceUDP.init .bits64 localhostApi {} "0777" = (true, _) from rfl)).1
    exact absurd ((hports (by decide)).mp hagree rfl) (by decide)
  · exact (udp_ports_agree_iff localhostApi_readsPorts localhostApi_binds (by decide)
      (List.all_eq_true.mp hall.2) (by decide)
      (show UDPSink.init localhostApi {} ("localhost" ++ ":" ++ "0") = (true, _) from rfl)
      (show MIDISourceUDP.init .bits64 localhostApi {} "0" = (true, _) from rfl)).2 (by decide)

end Sussybard
