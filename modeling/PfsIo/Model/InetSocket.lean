import PfsIo.Model.UnixSocket

/-!
# Internet sockets

`unix_socket.hpp`: `open_inet_socket` and the TCP and UDP functions built on it. Name
resolution is not part of the source: a `Resolver` answers for it. The address loop is
a loop driven by the answers of `::socket`; the functions have no result while the
answers given do not end it.

## Main definitions

* `AddrList`, `Resolver` — what the address loop works on.
* `addressLoop`, `openInetSocket` — the address loop and the function around it.
* `Tcp.open_`, `Tcp.openServer`, `Udp.open_`, `Udp.openServer` — its callers.
-/

namespace PfsIo

open Library

/-- An entry of the list that `getaddrinfo` delivers. -/
structure AddrInfo where
  family : Nat
  socktype : Nat
  protocol : Nat
  addr : Bytes
  deriving DecidableEq, Repr

/-- A delivered list has at least one entry. -/
abbrev AddrList := { entries : List AddrInfo // entries ≠ [] }

namespace AddrList

/-- Pointers to the entries. -/
abbrev Ptr (addrs : AddrList) := Fin addrs.1.length

def first (addrs : AddrList) : addrs.Ptr := ⟨0, List.length_pos_iff.mpr addrs.2⟩

/-- `p->ai_next`. -/
def aiNext (addrs : AddrList) (p : addrs.Ptr) : Option addrs.Ptr :=
  if h : p.1 + 1 < addrs.1.length then some ⟨p.1 + 1, h⟩ else none

def entry (addrs : AddrList) (p : addrs.Ptr) : AddrInfo := addrs.1.get p

end AddrList

structure Hints where
  flags : Nat
  family : Nat
  socktype : Nat
  deriving DecidableEq, Repr

/-- `inet_pton` for both families, and `getaddrinfo`. -/
structure Resolver where
  pton4 : Bytes → Option { addr : Bytes // addr.length = 4 }
  pton6 : Bytes → Option { addr : Bytes // addr.length = 16 }
  getaddrinfo : Bytes → Hints → Except Int AddrList

/-- The two bytes of a port in network order. -/
def htons (port : UInt16) : Bytes := [(port >>> 8).toUInt8, port.toUInt8]

/-- `sockaddr_in`: family, port, address, padding. -/
def sockaddrIn (port : UInt16) (addr : Bytes) : Bytes :=
  [2, 0] ++ htons port ++ addr ++ List.replicate 8 0

/-- `sockaddr_in6`: family, port, flow information, address, scope. -/
def sockaddrIn6 (port : UInt16) (addr : Bytes) : Bytes :=
  [10, 0] ++ htons port ++ List.replicate 4 0 ++ addr ++ List.replicate 4 0

/-- The assignment to `sin_port` through the IPv4 layout. -/
def setSinPort (addr : Bytes) (port : UInt16) : Bytes :=
  addr.take 2 ++ htons port ++ addr.drop 4

def aiV4mapped : Nat := 8
def afUnspec : Nat := 0

/-- The socket type that `open_inet_socket` asks for. -/
def inetSockType (baseSocktype : Nat) (nonblocking : Bool) : Nat :=
  if nonblocking then baseSocktype ||| sockNonblock else baseSocktype

/-- `result_addr` before the address loop; `none` when `getaddrinfo` fails. -/
def resultAddr (res : Resolver) (servername : Bytes) (port : UInt16) (socktype : Nat) :
    Option AddrList :=
  match res.pton4 (cStr servername) with
  | some addr => some ⟨[⟨afInet, socktype, 0, sockaddrIn port addr⟩], by simp⟩
  | none =>
    match res.pton6 (cStr servername) with
    | some addr => some ⟨[⟨afInet6, socktype, 0, sockaddrIn6 port addr⟩], by simp⟩
    | none => (res.getaddrinfo (cStr servername) ⟨aiV4mapped, afUnspec, socktype⟩).toOption

/-- The variables of the address loop; `p` is a null pointer when it is `none`. -/
structure AddressState (addrs : AddrList) where
  p : Option addrs.Ptr
  fd : Int
  ec : ErrorCode
  serveraddr : Bytes
  os : Os

/-- The body for the entry `p`. After a failure the loop continues with the entry
after `result_addr`, which is the first of the list. -/
def addressBody (plat : Platform) (port : UInt16) {addrs : AddrList} (s : AddressState addrs)
    (p : addrs.Ptr) (reply : FdReply) : Flow (AddressState addrs) :=
  let entry := addrs.entry p
  let addr := setSinPort entry.addr port
  let c := s.os.newFd (.socket entry.family entry.socktype entry.protocol) reply
  let s := { s with fd := c.rc, os := c.os }
  if c.rc < 0 then
    .next { s with ec := getLastSystemError plat c.os.errno, p := addrs.aiNext addrs.first }
  else
    .leave { s with serveraddr := addr }

def addressLoop (plat : Platform) (port : UInt16) (addrs : AddrList) :
    Loop (AddressState addrs) FdReply where
  guard s := s.p.isSome
  body s reply := match s.p with
    | some p => addressBody plat port s p reply
    | none => .leave s

def AddressState.start (addrs : AddrList) (ec : ErrorCode) (os : Os) : AddressState addrs :=
  ⟨some addrs.first, -1, ec, [], os⟩

/-- Answers to the calls of `open_inet_socket`: those of `::socket` in the order of
the attempts, and that of `::close`. -/
structure InetReplies where
  socket : List FdReply
  close : Reply := .ok ()

/-- `open_inet_socket` after the address loop. -/
def inetResult {addrs : AddrList} (s : AddressState addrs) (close : Reply) : Ret (Int × Bytes) :=
  if s.fd < 0 then ⟨(s.fd, s.serveraddr), s.ec, s.os⟩
  else if s.ec.isSet then ⟨(s.fd, s.serveraddr), s.ec, (s.os.close s.fd close).os⟩
  else ⟨(s.fd, s.serveraddr), s.ec, s.os⟩

/-- `open_inet_socket`: the descriptor and the bytes of the server address. -/
def openInetSocket (plat : Platform) (os : Os) (res : Resolver) (servername : Bytes)
    (port : UInt16) (baseSocktype : Nat) (nonblocking : Bool) (r : InetReplies)
    (ec : ErrorCode) : Option (Ret (Int × Bytes)) :=
  match resultAddr res servername port (inetSockType baseSocktype nonblocking) with
  | none => some ⟨(-1, []), makeErrorCode .hostNotFound, os⟩
  | some addrs =>
    ((addressLoop plat port addrs).run (.start addrs ec os) r.socket).map
      fun l => inetResult l.1 r.close

section Result

variable {addrs : AddrList} {s : AddressState addrs} (close : Reply)

@[simp] theorem inetResult_value : (inetResult s close).value = (s.fd, s.serveraddr) := by
  simp only [inetResult, apply_ite Ret.value, ite_self]

@[simp] theorem inetResult_ec : (inetResult s close).ec = s.ec := by
  simp only [inetResult, apply_ite Ret.ec, ite_self]

theorem inetResult_of_neg (h : s.fd < 0) :
    inetResult s close = ⟨(s.fd, s.serveraddr), s.ec, s.os⟩ := by
  simp [inetResult, h]

theorem inetResult_of_isSet (h : 0 ≤ s.fd) (hec : s.ec.isSet = true) :
    inetResult s close = ⟨(s.fd, s.serveraddr), s.ec, (s.os.close s.fd close).os⟩ := by
  simp [inetResult, Int.not_lt.mpr h, hec]

theorem inetResult_of_clear (h : 0 ≤ s.fd) (hec : s.ec.isSet = false) :
    inetResult s close = ⟨(s.fd, s.serveraddr), s.ec, s.os⟩ := by
  simp [inetResult, Int.not_lt.mpr h, hec]

end Result

namespace Tcp

/-- Answers to the calls of `tcp::open` after `open_inet_socket`. -/
structure OpenReplies where
  connect : Reply := .ok ()
  close : Reply := .ok ()

/-- `tcp::open`, after the call of `open_inet_socket`. -/
def connectTo (plat : Platform) (c : Ret (Int × Bytes)) (r : OpenReplies) : Ret DeviceHandle :=
  let fd := c.value.1
  if fd ≥ 0 then
    let k := c.os.check (.connect fd c.value.2) r.connect
    if k.rc < 0 then
      ⟨handleOf (-1), getLastSystemError plat k.os.errno, (k.os.close fd r.close).os⟩
    else ⟨handleOf fd, c.ec, k.os⟩
  else ⟨handleOf fd, c.ec, c.os⟩

/-- `tcp::open`. -/
def open_ (plat : Platform) (os : Os) (res : Resolver) (servername : Bytes) (port : UInt16)
    (nonblocking : Bool) (inet : InetReplies) (r : OpenReplies) (ec : ErrorCode) :
    Option (Ret DeviceHandle) :=
  (openInetSocket plat os res servername port sockStream nonblocking inet ec).map
    fun c => connectTo plat c r

/-- Answers to the calls of the `open_server` functions after `open_inet_socket`. -/
structure ServerReplies where
  setsockopt : Reply := .ok ()
  bind : Reply := .ok ()
  listen : Reply := .ok ()
  close : Reply := .ok ()

/-- `tcp::open_server`, after the call of `open_inet_socket`. -/
def listenAt (plat : Platform) (c : Ret (Int × Bytes)) (maxPendingConnections : Int)
    (r : ServerReplies) : Ret DeviceHandle :=
  let fd := c.value.1
  if fd ≥ 0 then
    let o := c.os.check (.setReuseAddr fd) r.setsockopt
    if o.rc = 0 then
      let b := o.os.check (.bind fd c.value.2) r.bind
      let l := if b.rc = 0 then b.os.check (.listen fd maxPendingConnections) r.listen else b
      if l.rc < 0 then
        ⟨handleOf (-1), getLastSystemError plat l.os.errno, (l.os.close fd r.close).os⟩
      else ⟨handleOf fd, c.ec, l.os⟩
    else ⟨handleOf fd, c.ec, o.os⟩
  else ⟨handleOf fd, c.ec, c.os⟩

/-- `tcp::open_server`. -/
def openServer (plat : Platform) (os : Os) (res : Resolver) (servername : Bytes)
    (port : UInt16) (nonblocking : Bool) (maxPendingConnections : Int) (inet : InetReplies)
    (r : ServerReplies) (ec : ErrorCode) : Option (Ret DeviceHandle) :=
  (openInetSocket plat os res servername port sockStream nonblocking inet ec).map
    fun c => listenAt plat c maxPendingConnections r

/-- `tcp::accept`. -/
def accept (plat : Platform) (os : Os) (h : DeviceHandle) (reply : FdReply) (ec : ErrorCode) :
    Ret DeviceHandle :=
  let c := os.newFd (.accept h.fd) reply
  ⟨handleOf c.rc, if c.rc < 0 then getLastSystemError plat c.os.errno else ec, c.os⟩

end Tcp

namespace Udp

/-- `udp::open`, after the call of `open_inet_socket`. -/
def storeAddress (c : Ret (Int × Bytes)) (paddr : Option HostAddress) :
    Ret (DeviceHandle × Option HostAddress) :=
  let addr := c.value.2
  ⟨(handleOf c.value.1, paddr.map fun a => a.memcpy (addr.take (min addr.length 28))), c.ec, c.os⟩

/-- `udp::open`; a null `paddr` is `none`. -/
def open_ (plat : Platform) (os : Os) (res : Resolver) (servername : Bytes) (port : UInt16)
    (nonblocking : Bool) (paddr : Option HostAddress) (inet : InetReplies) (ec : ErrorCode) :
    Option (Ret (DeviceHandle × Option HostAddress)) :=
  (openInetSocket plat os res servername port sockDgram nonblocking inet ec).map
    fun c => storeAddress c paddr

/-- `udp::open_server`, after the call of `open_inet_socket`. -/
def bindTo (plat : Platform) (c : Ret (Int × Bytes)) (r : Tcp.ServerReplies) : Ret DeviceHandle :=
  let fd := c.value.1
  if fd ≥ 0 then
    let o := c.os.check (.setReuseAddr fd) r.setsockopt
    if o.rc = 0 then
      let b := o.os.check (.bind fd c.value.2) r.bind
      if b.rc < 0 then
        ⟨handleOf (-1), getLastSystemError plat b.os.errno, (b.os.close fd r.close).os⟩
      else ⟨handleOf fd, c.ec, b.os⟩
    else ⟨handleOf fd, c.ec, o.os⟩
  else ⟨handleOf fd, c.ec, c.os⟩

/-- `udp::open_server`. -/
def openServer (plat : Platform) (os : Os) (res : Resolver) (servername : Bytes)
    (port : UInt16) (nonblocking : Bool) (inet : InetReplies) (r : Tcp.ServerReplies)
    (ec : ErrorCode) : Option (Ret DeviceHandle) :=
  (openInetSocket plat os res servername port sockDgram nonblocking inet ec).map
    fun c => bindTo plat c r

end Udp

end PfsIo
