import PfsIo.Inet.Descriptors

/-!
# The address that is selected

`open_inet_socket` returns the bytes of one entry, the one that the descriptor was created
for, with the port written into them through the IPv4 layout. `udp::open` copies the bytes
into the union of the two layouts.

## Main definitions

* `SockaddrLayout` — where a structure has its port and its address.
* `Offered` — the entries that a name stands for.
* `Selected`, `Held` — what is returned for an entry, and what is left in the union.

## Main results

* `AddressLoop.run_attempted` — the loop selects one entry, and nothing is left of those
  before it.
* `openInetSocket_selects` — the address returned, and the one stored.
-/

namespace PfsIo

open Library

/-- A socket address structure: its size, and the positions of its fields. -/
structure SockaddrLayout where
  family : Nat
  size : Nat
  portAt : Nat
  addrAt : Nat
  addrLength : Nat

/-- The number that two bytes in network order stand for. -/
def ntohs : Bytes → Nat
  | [high, low] => 256 * high.toNat + low.toNat
  | _ => 0

theorem htons_eq (port : UInt16) :
    htons port = [UInt8.ofNat (port.toNat / 256), UInt8.ofNat (port.toNat % 256)] := by
  simp only [htons, List.cons.injEq, and_true]
  constructor
  · apply UInt8.toNat_inj.mp
    simp [UInt16.toNat_shiftRight, Nat.shiftRight_eq_div_pow]
  · apply UInt8.toNat_inj.mp
    simp

theorem ntohs_htons (port : UInt16) : ntohs (htons port) = port.toNat := by
  have hlt := port.toNat_lt
  rw [htons_eq]
  simp only [ntohs, UInt8.toNat_ofNat']
  omega

namespace SockaddrLayout

/-- `sockaddr_in`. -/
def in4 : SockaddrLayout := ⟨afInet, 16, 2, 4, 4⟩

/-- `sockaddr_in6`. -/
def in6 : SockaddrLayout := ⟨afInet6, 28, 2, 8, 16⟩

/-- `sin_port` or `sin6_port` of the structure at the beginning of the bytes. -/
def port (l : SockaddrLayout) (bytes : Bytes) : Nat := ntohs (field bytes l.portAt 2)

/-- `sin_addr` or `sin6_addr`. -/
def addr (l : SockaddrLayout) (bytes : Bytes) : Bytes := field bytes l.addrAt l.addrLength

/-- The two structures of the union. -/
inductive Member : SockaddrLayout → Prop
  | in4 : Member in4
  | in6 : Member in6

end SockaddrLayout

/-- The entry holds one of the two structures, with its family. -/
def AddrInfo.WellFormed (e : AddrInfo) : Prop :=
  ∃ l, SockaddrLayout.Member l ∧ e.family = l.family ∧ e.addr.length = l.size

/-- `getaddrinfo` delivers IPv4 and IPv6 addresses only. -/
def Resolver.Sockaddrs (res : Resolver) : Prop :=
  ∀ name hints addrs, res.getaddrinfo name hints = .ok addrs → ∀ e ∈ addrs.1, e.WellFormed

/-- The entries that a name stands for: that of a literal, or those of the resolver. -/
inductive Offered (res : Resolver) (servername : Bytes) (port : UInt16) (socktype : Nat) :
    AddrInfo → Prop
  | literal4 (addr) : res.pton4 (cStr servername) = some addr →
      Offered res servername port socktype ⟨afInet, socktype, 0, sockaddrIn port addr⟩
  | literal6 (addr) : res.pton4 (cStr servername) = none →
      res.pton6 (cStr servername) = some addr →
      Offered res servername port socktype ⟨afInet6, socktype, 0, sockaddrIn6 port addr⟩
  | resolved (addrs : AddrList) (e) : res.pton4 (cStr servername) = none →
      res.pton6 (cStr servername) = none →
      res.getaddrinfo (cStr servername) ⟨aiV4mapped, afUnspec, socktype⟩ = .ok addrs →
      e ∈ addrs.1 → Offered res servername port socktype e

/-- The result is for the entry: its own bytes except for the port, and a descriptor that
was created for it. -/
structure Selected (os : Os) (port : UInt16) (e : AddrInfo) (c : Ret (Int × Bytes)) : Prop where
  length : c.value.2.length = e.addr.length
  high : c.value.2[2]? = some (UInt8.ofNat (port.toNat / 256))
  low : c.value.2[3]? = some (UInt8.ofNat (port.toNat % 256))
  rest : ∀ i, i ≠ 2 → i ≠ 3 → c.value.2[i]? = e.addr[i]?
  created : ∀ family socktype protocol,
    .socket family socktype protocol c.value.1 ∈ callsSince os c.os ↔
      family = e.family ∧ socktype = e.socktype ∧ protocol = e.protocol

/-- The union after the bytes of the entry have been copied into it. -/
structure Held (res : Resolver) (servername : Bytes) (port : UInt16) (e : AddrInfo)
    (bytes : Bytes) (a : HostAddress) : Prop where
  within : patch? HostAddress.zero.bytes 0 bytes = some a.bytes
  contents : a.bytes = bytes ++ List.replicate (28 - bytes.length) 0
  port : ∀ l, SockaddrLayout.Member l → l.port a.bytes = port.toNat
  addr : ∀ l, SockaddrLayout.Member l → e.family = l.family → l.addr a.bytes = l.addr e.addr
  requested4 : ∀ addr, res.pton4 (cStr servername) = some addr →
    SockaddrLayout.in4.addr a.bytes = addr
  requested6 : ∀ addr, res.pton4 (cStr servername) = none →
    res.pton6 (cStr servername) = some addr → SockaddrLayout.in6.addr a.bytes = addr

theorem AddrList.entry_mem (addrs : AddrList) (p : addrs.Ptr) : addrs.entry p ∈ addrs.1 :=
  List.get_mem addrs.1 p

theorem offered_of_mem {res : Resolver} {servername : Bytes} {port : UInt16} {socktype : Nat}
    {addrs : AddrList} {e : AddrInfo}
    (h : resultAddr res servername port socktype = some addrs) (he : e ∈ addrs.1) :
    Offered res servername port socktype e := by
  unfold resultAddr at h
  split at h
  case h_1 addr h4 =>
    obtain rfl := Option.some.inj h
    obtain rfl := List.mem_singleton.mp he
    exact .literal4 addr h4
  case h_2 h4 =>
    split at h
    case h_1 addr h6 =>
      obtain rfl := Option.some.inj h
      obtain rfl := List.mem_singleton.mp he
      exact .literal6 addr h4 h6
    case h_2 h6 =>
      refine .resolved addrs e h4 h6 ?_ he
      cases hget : res.getaddrinfo (cStr servername) ⟨aiV4mapped, afUnspec, socktype⟩ with
      | ok addrs' => simpa [hget, Except.toOption] using h
      | error err => simp [hget, Except.toOption] at h

/-- A well-formed entry is 16 or 28 bytes long. -/
theorem AddrInfo.WellFormed.length {e : AddrInfo} (h : e.WellFormed) :
    16 ≤ e.addr.length ∧ e.addr.length ≤ 28 := by
  obtain ⟨l, hl, -, hsize⟩ := h
  cases hl with
  | in4 => simp [hsize, SockaddrLayout.in4]
  | in6 => simp [hsize, SockaddrLayout.in6]

theorem AddrInfo.WellFormed.size_of_family {e : AddrInfo} (h : e.WellFormed)
    {l : SockaddrLayout} (hl : l.Member) (hfamily : e.family = l.family) :
    e.addr.length = l.size := by
  obtain ⟨l', hl', hfamily', hsize⟩ := h
  rw [hfamily] at hfamily'
  cases hl <;> cases hl' <;> first | exact hsize | cases hfamily'

theorem sockaddrIn_wellFormed (socktype : Nat) (port : UInt16)
    (addr : { addr : Bytes // addr.length = 4 }) :
    AddrInfo.WellFormed ⟨afInet, socktype, 0, sockaddrIn port addr⟩ :=
  ⟨.in4, .in4, rfl, by simp [sockaddrIn, htons, addr.2, SockaddrLayout.in4]⟩

theorem sockaddrIn6_wellFormed (socktype : Nat) (port : UInt16)
    (addr : { addr : Bytes // addr.length = 16 }) :
    AddrInfo.WellFormed ⟨afInet6, socktype, 0, sockaddrIn6 port addr⟩ :=
  ⟨.in6, .in6, rfl, by simp [sockaddrIn6, htons, addr.2, SockaddrLayout.in6]⟩

theorem addr_sockaddrIn (port : UInt16) (addr : { addr : Bytes // addr.length = 4 }) :
    SockaddrLayout.in4.addr (sockaddrIn port addr) = addr := by
  simp [SockaddrLayout.addr, SockaddrLayout.in4, field, sockaddrIn, htons, addr.2]

theorem addr_sockaddrIn6 (port : UInt16) (addr : { addr : Bytes // addr.length = 16 }) :
    SockaddrLayout.in6.addr (sockaddrIn6 port addr) = addr := by
  simp [SockaddrLayout.addr, SockaddrLayout.in6, field, sockaddrIn6, htons, addr.2]

theorem Offered.wellFormed {res : Resolver} {servername : Bytes} {port : UInt16}
    {socktype : Nat} {e : AddrInfo} (hres : res.Sockaddrs)
    (h : Offered res servername port socktype e) : e.WellFormed := by
  cases h with
  | literal4 addr _ => exact sockaddrIn_wellFormed socktype port addr
  | literal6 addr _ _ => exact sockaddrIn6_wellFormed socktype port addr
  | resolved addrs _ _ _ haddrs he => exact hres _ _ addrs haddrs e he

theorem Offered.eq_literal4 {res : Resolver} {servername : Bytes} {port : UInt16}
    {socktype : Nat} {e : AddrInfo} (h : Offered res servername port socktype e)
    {addr : { addr : Bytes // addr.length = 4 }} (h4 : res.pton4 (cStr servername) = some addr) :
    e = ⟨afInet, socktype, 0, sockaddrIn port addr⟩ := by
  cases h with
  | literal4 addr' h4' =>
    obtain rfl := Option.some.inj (h4'.symm.trans h4)
    rfl
  | literal6 addr' h4' _ => simp [h4] at h4'
  | resolved addrs _ h4' _ _ _ => simp [h4] at h4'

theorem Offered.eq_literal6 {res : Resolver} {servername : Bytes} {port : UInt16}
    {socktype : Nat} {e : AddrInfo} (h : Offered res servername port socktype e)
    {addr : { addr : Bytes // addr.length = 16 }} (h4 : res.pton4 (cStr servername) = none)
    (h6 : res.pton6 (cStr servername) = some addr) :
    e = ⟨afInet6, socktype, 0, sockaddrIn6 port addr⟩ := by
  cases h with
  | literal4 addr' h4' => simp [h4] at h4'
  | literal6 addr' _ h6' =>
    obtain rfl := Option.some.inj (h6'.symm.trans h6)
    rfl
  | resolved addrs _ _ h6' _ _ => simp [h6] at h6'

/-- The assignment to `sin_port` is a write of two bytes. -/
theorem setSinPort_eq_patch (addr : Bytes) (port : UInt16) :
    setSinPort addr port = patch addr 2 (htons port) := by
  simp [setSinPort, patch, htons]

theorem htons_fits {addr : Bytes} (h : 16 ≤ addr.length) (port : UInt16) :
    2 + (htons port).length ≤ addr.length := by
  simp only [htons, List.length_cons, List.length_nil]
  omega

theorem length_setSinPort {addr : Bytes} (h : 16 ≤ addr.length) (port : UInt16) :
    (setSinPort addr port).length = addr.length := by
  rw [setSinPort_eq_patch]
  exact length_patch (htons_fits h port)

theorem getElem?_setSinPort {addr : Bytes} (h : 16 ≤ addr.length) (port : UInt16) (i : Nat) :
    (setSinPort addr port)[i]? =
      if 2 ≤ i ∧ i < 4 then (htons port)[i - 2]? else addr[i]? := by
  rw [setSinPort_eq_patch]
  exact getElem?_patch (htons_fits h port) i

/-- Either structure has its port where the IPv4 layout has it. -/
theorem SockaddrLayout.port_setSinPort {l : SockaddrLayout} (hl : l.Member) {addr : Bytes}
    (h : 16 ≤ addr.length) (port : UInt16) (more : Bytes) :
    l.port (setSinPort addr port ++ more) = port.toNat := by
  have hwrite : field (setSinPort addr port ++ more) 2 2 = htons port := by
    rw [field_append (by rw [length_setSinPort h]; omega), setSinPort_eq_patch]
    exact field_patch_self (htons_fits h port)
  cases hl <;> exact (congrArg ntohs hwrite).trans (ntohs_htons port)

/-- The address of either structure lies behind the port. -/
theorem SockaddrLayout.addr_setSinPort {l : SockaddrLayout} (hl : l.Member) {addr : Bytes}
    (h : addr.length = l.size) (port : UInt16) (more : Bytes) :
    l.addr (setSinPort addr port ++ more) = l.addr addr := by
  have hsize : l.addrAt + l.addrLength ≤ addr.length ∧ 4 ≤ l.addrAt ∧ 16 ≤ addr.length := by
    rw [h]
    cases hl <;> decide
  obtain ⟨hfits, hbehind, hlong⟩ := hsize
  unfold SockaddrLayout.addr
  rw [field_append (by rw [length_setSinPort hlong]; exact hfits), setSinPort_eq_patch]
  exact field_patch_of_disjoint (htons_fits hlong port) (.inr (by simpa [htons] using hbehind))

namespace AddressLoop

variable {plat : Platform} {port : UInt16} {addrs : AddrList} {s t : AddressState addrs}
  {replies rest : List FdReply}

/-- All attempts so far have failed. -/
structure Attempted (os : Os) (s : AddressState addrs) : Prop where
  fd : s.fd = -1
  log : ∃ calls, s.os.log = os.log ++ calls ∧ ∀ call ∈ calls, ∃ p, call = socketCall addrs p (-1)

theorem Attempted.failed {os : Os} (h : Attempted os s) (plat : Platform) (p : addrs.Ptr)
    (e : ℕ+) : Attempted os (failed plat s p e) := by
  obtain ⟨calls, hlog, hcalls⟩ := h.log
  refine ⟨rfl, calls ++ [socketCall addrs p (-1)], ?_, ?_⟩
  · simp [AddressLoop.failed, hlog]
  · intro call hcall
    rcases List.mem_append.mp hcall with hcall | hcall
    · exact hcalls call hcall
    · exact ⟨p, List.mem_singleton.mp hcall⟩

/-- The loop ends without a descriptor, or with an attempt that succeeds after others that
have failed. -/
theorem run_attempted {os : Os} (hs : Attempted os s)
    (hrun : (addressLoop plat port addrs).run s replies = some (t, rest)) :
    t.fd = -1 ∨ ∃ u p a, Attempted os u ∧ t = selected port u p a := by
  refine run_rule (Attempted os)
    (fun t => t.fd = -1 ∨ ∃ u p a, Attempted os u ∧ t = selected port u p a) ?_ ?_ ?_ hs hrun
  · intro u p e hu _
    exact hu.failed plat p e
  · intro u p a hu _
    exact .inr ⟨u, p, a, hu, rfl⟩
  · intro u hu _
    exact .inl hu.fd

/-- After the loop nothing is called but `::close`. -/
theorem makes_inetResult {os : Os} {calls : List Call} (h : s.os.log = os.log ++ calls)
    (close : Reply) : Makes os (inetResult s close).os calls := by
  unfold inetResult
  split
  · exact .of_log h
  · split
    · exact .close h s.fd close
    · exact .of_log h

/-- The descriptor was created by the call for the entry, and by no other. -/
theorem Attempted.created {os : Os} (h : Attempted os s) (p : addrs.Ptr) (a : Alloc)
    (close : Reply) (family socktype protocol : Nat) :
    let c := inetResult (selected port s p a) close
    .socket family socktype protocol c.value.1 ∈ callsSince os c.os ↔
      family = (addrs.entry p).family ∧ socktype = (addrs.entry p).socktype ∧
        protocol = (addrs.entry p).protocol := by
  intro c
  obtain ⟨failed, hlog, hfailed⟩ := h.log
  have hfd : c.value.1 = a.pick s.os.opened := by rw [inetResult_value]; rfl
  have hmakes : Makes os c.os (failed ++ [socketCall addrs p c.value.1]) := by
    refine makes_inetResult ?_ close
    rw [hfd]
    simp [selected, hlog]
  have hbefore : .socket family socktype protocol c.value.1 ∉ failed := by
    intro hmem
    obtain ⟨q, hq⟩ := hfailed _ hmem
    have hnonneg := a.nonneg s.os.opened
    simp only [socketCall, Call.socket.injEq] at hq
    omega
  rw [hmakes.mem_iff (by simp), List.mem_append, or_iff_right hbefore]
  simp [socketCall]

/-- What an attempt that succeeds returns is for its entry. -/
theorem Attempted.selects {os : Os} (h : Attempted os s) (p : addrs.Ptr)
    (hlong : 16 ≤ (addrs.entry p).addr.length) (a : Alloc) (close : Reply) :
    Selected os port (addrs.entry p) (inetResult (selected port s p a) close) := by
  have hbytes := getElem?_setSinPort hlong port
  have hcode := htons_eq port
  refine ⟨?_, ?_, ?_, ?_, ?_⟩
  · rw [inetResult_value]
    exact length_setSinPort hlong port
  · rw [inetResult_value]
    exact (hbytes 2).trans (by simp [hcode])
  · rw [inetResult_value]
    exact (hbytes 3).trans (by simp [hcode])
  · intro i h2 h3
    rw [inetResult_value]
    exact (hbytes i).trans (if_neg (by omega))
  · exact h.created p a close

end AddressLoop

/-- The copy of a well-formed entry into a cleared union. -/
theorem held_of_offered {res : Resolver} {servername : Bytes} {port : UInt16} {socktype : Nat}
    {e : AddrInfo} (he : e.WellFormed) (h : Offered res servername port socktype e) :
    let bytes := setSinPort e.addr port
    Held res servername port e bytes
      (HostAddress.zero.memcpy (bytes.take (min bytes.length 28))) := by
  intro bytes
  obtain ⟨hlong, hshort⟩ := he.length
  have hlength : bytes.length = e.addr.length := length_setSinPort hlong port
  have hstored : (HostAddress.zero.memcpy (bytes.take (min bytes.length 28))).bytes =
      bytes ++ List.replicate (28 - bytes.length) 0 := by
    rw [List.take_of_length_le (by omega), HostAddress.bytes_zero_memcpy (by omega)]
  have haddr : ∀ l, SockaddrLayout.Member l → e.family = l.family →
      l.addr (bytes ++ List.replicate (28 - bytes.length) 0) = l.addr e.addr := by
    intro l hl hfamily
    exact l.addr_setSinPort hl (he.size_of_family hl hfamily) port _
  refine ⟨?_, hstored, ?_, ?_, ?_, ?_⟩
  · have hfits : 0 + bytes.length ≤ HostAddress.zero.bytes.length := by
      rw [HostAddress.zero.size]
      omega
    rw [hstored, patch?_of_le hfits]
    exact congrArg some (patch_replicate 28 0 bytes)
  · intro l hl
    rw [hstored]
    exact l.port_setSinPort hl hlong port _
  · rwa [hstored]
  · intro addr h4
    obtain rfl := h.eq_literal4 h4
    rw [hstored, haddr .in4 .in4 rfl]
    exact addr_sockaddrIn port addr
  · intro addr h4 h6
    obtain rfl := h.eq_literal6 h4 h6
    rw [hstored, haddr .in6 .in6 rfl]
    exact addr_sockaddrIn6 port addr

/-- When the function returns a descriptor, with or without an error, it belongs to the last
attempt. -/
theorem openInetSocket_attempted {plat : Platform} {os : Os} {res : Resolver}
    {servername : Bytes} {port : UInt16} {baseSocktype : Nat} {nonblocking : Bool}
    {r : InetReplies} {ec : ErrorCode} {c : Ret (Int × Bytes)}
    (hc : openInetSocket plat os res servername port baseSocktype nonblocking r ec = some c)
    (hfd : 0 ≤ c.value.1) :
    ∃ (addrs : AddrList) (s : AddressState addrs) (p : addrs.Ptr) (a : Alloc),
      resultAddr res servername port (inetSockType baseSocktype nonblocking) = some addrs ∧
      AddressLoop.Attempted os s ∧ c = inetResult (AddressLoop.selected port s p a) r.close := by
  cases hres : resultAddr res servername port (inetSockType baseSocktype nonblocking) with
  | none =>
    simp only [openInetSocket, hres] at hc
    obtain rfl := Option.some.inj hc
    exact absurd hfd (Int.not_le.mpr (Int.negSucc_lt_zero 0))
  | some addrs =>
    simp only [openInetSocket, hres] at hc
    obtain ⟨⟨t, rest⟩, hrun, rfl⟩ := Option.map_eq_some_iff.mp hc
    have hstart : AddressLoop.Attempted os (.start addrs ec os) :=
      ⟨rfl, [], by simp [AddressState.start], by simp⟩
    rcases AddressLoop.run_attempted hstart hrun with hneg | ⟨s, p, a, hs, rfl⟩
    · rw [inetResult_value] at hfd
      exact absurd hfd (by simp [hneg])
    · exact ⟨addrs, s, p, a, rfl, hs, rfl⟩

/-- On every script of answers on which `open_inet_socket` returns a descriptor, the address
is that of one entry for the name, with the port written into it, and the descriptor was
created for the same entry. `udp::open` leaves this address in a cleared union, and both
layouts find the port there. -/
theorem openInetSocket_selects (plat : Platform) (os : Os) (res : Resolver) (servername : Bytes)
    (port : UInt16) (baseSocktype : Nat) (nonblocking : Bool) (r : InetReplies)
    (ec : ErrorCode) (c : Ret (Int × Bytes)) (hres : res.Sockaddrs)
    (hc : openInetSocket plat os res servername port baseSocktype nonblocking r ec = some c)
    (hfd : 0 ≤ c.value.1) :
    ∃ e, Offered res servername port (inetSockType baseSocktype nonblocking) e ∧
      Selected os port e c ∧
      (baseSocktype = sockDgram → ∃ a,
        Udp.open_ plat os res servername port nonblocking (some .zero) r ec =
          some ⟨(⟨c.value.1⟩, some a), c.ec, c.os⟩ ∧
        Held res servername port e c.value.2 a) := by
  obtain ⟨addrs, s, p, a, haddrs, hs, rfl⟩ := openInetSocket_attempted hc hfd
  have hoffered := offered_of_mem haddrs (addrs.entry_mem p)
  have hwell := hoffered.wellFormed hres
  refine ⟨addrs.entry p, hoffered, hs.selects p hwell.length.1 a r.close, ?_⟩
  rintro rfl
  let bytes := setSinPort (addrs.entry p).addr port
  have hbytes : (inetResult (AddressLoop.selected port s p a) r.close).value.2 = bytes := by
    rw [inetResult_value]
    rfl
  refine ⟨HostAddress.zero.memcpy (bytes.take (min bytes.length 28)), ?_, ?_⟩
  · rw [Udp.open_, hc, Option.map_some, Udp.storeAddress, handleOf_of_nonneg hfd]
    simp only [Option.map_some, hbytes]
  · rw [hbytes]
    exact held_of_offered hwell hoffered

/-- A resolver that knows an IPv6 and an IPv4 address of each host. -/
def dualResolver : Resolver where
  pton4 _ := none
  pton6 _ := none
  getaddrinfo _ hints := .ok
    ⟨[⟨afInet6, hints.socktype, 17, sockaddrIn6 0 (List.replicate 16 1)⟩,
      ⟨afInet, hints.socktype, 17, sockaddrIn 0 [10, 0, 0, 1]⟩], by simp⟩

theorem sockaddrs_dualResolver : dualResolver.Sockaddrs := by
  rintro name hints addrs haddrs e he
  obtain rfl := Except.ok.inj haddrs
  simp only [List.mem_cons, List.not_mem_nil, or_false] at he
  rcases he with rfl | rfl
  · exact ⟨.in6, .in6, rfl, rfl⟩
  · exact ⟨.in4, .in4, rfl, rfl⟩

/-- What `open_inet_socket` returns for a host when its first address works. -/
def dualResult : Ret (Int × Bytes) :=
  ⟨(3, sockaddrIn6 5000 (List.replicate 16 1)), .clear,
    ⟨{3}, 0, [.socket afInet6 sockDgram 17 3]⟩⟩

theorem openInetSocket_selects_dual :
    ∃ e, Offered dualResolver [104] 5000 sockDgram e ∧ Selected ⟨∅, 0, []⟩ 5000 e dualResult ∧
      ∃ a, Udp.open_ .linux ⟨∅, 0, []⟩ dualResolver [104] 5000 false (some .zero)
          ⟨[.ok (.prefer 3)], .ok ()⟩ .clear =
            some ⟨(⟨3⟩, some a), .clear, ⟨{3}, 0, [.socket afInet6 sockDgram 17 3]⟩⟩ ∧
        Held dualResolver [104] 5000 e (sockaddrIn6 5000 (List.replicate 16 1)) a := by
  obtain ⟨e, hoffered, hselected, hopen⟩ := openInetSocket_selects .linux ⟨∅, 0, []⟩
    dualResolver [104] 5000 sockDgram false ⟨[.ok (.prefer 3)], .ok ()⟩ .clear dualResult
    sockaddrs_dualResolver rfl (by decide)
  exact ⟨e, hoffered, hselected, hopen rfl⟩

end PfsIo
