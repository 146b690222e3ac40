import PfsIo.Model.InetSocket

/-!
# Device and server objects

The classes that own a device handle (`file.hpp`, `local_socket.hpp`, `local_server.hpp`,
`tcp_socket.hpp`, `tcp_server.hpp`, `udp_socket.hpp`, `udp_server.hpp`) and the functions
that make them. The classes differ in which close function they call and in whether a
host address goes with the handle.

## Main definitions

* `Obj` — an object of one of the classes.
* `Obj.close`, `Obj.swap`, `Obj.ofHandle` — their members.
* `makeFile`, `makeTcpSocket`, … — the factories.
-/

namespace PfsIo

/-- The classes that hold a device handle. -/
inductive Kind where
  | file
  | localSocket
  | localPeer
  | tcpSocket
  | tcpPeer
  | udpSocket
  | udpServer
  | localServer
  | tcpServer
  deriving DecidableEq, Repr

/-- The class in which `swap` and the move operations are defined. -/
def Kind.base : Kind → Kind
  | .localPeer => .localSocket
  | .tcpPeer => .tcpSocket
  | .udpServer => .udpSocket
  | k => k

/-- Whether the class derives from `basic_device`. -/
def Kind.isDevice : Kind → Bool
  | .localServer | .tcpServer => false
  | _ => true

/-- An object; `addr` is the member `_addr` of UDP sockets and zero in the others. -/
structure Obj where
  kind : Kind
  h : DeviceHandle
  addr : HostAddress
  deriving DecidableEq

namespace Obj

/-- A default constructed object. -/
def default (kind : Kind) : Obj := ⟨kind, {}, .zero⟩

/-- The constructor from a handle, and from an address for UDP sockets, by `swap`. -/
def ofHandle (kind : Kind) (h : DeviceHandle) (addr : HostAddress := .zero) : Obj :=
  let o := default kind
  { o with h := (h.swap o.h).2, addr := (addr.swap o.addr).2 }

/-- The members `swap`; those of UDP sockets exchange the address too. -/
def swap (a b : Obj) : Obj × Obj :=
  let h := a.h.swap b.h
  if a.kind.base = .udpSocket then
    let addr := a.addr.swap b.addr
    ({ a with h := h.1, addr := addr.1 }, { b with h := h.2, addr := addr.2 })
  else ({ a with h := h.1 }, { b with h := h.2 })

/-- The members `opened`. -/
def opened (o : Obj) : Bool := File.opened o.h

/-- `file::close`. -/
def closeFile (plat : Platform) (h : DeviceHandle) (os : Os) (r : CloseReplies) :
    Ret DeviceHandle := File.close plat h os r

/-- `close` of the sockets and peers. -/
def closeSocket (plat : Platform) (h : DeviceHandle) (os : Os) (r : CloseReplies) :
    Ret DeviceHandle := Socket.close plat h true os r

/-- `close` of the local and TCP servers. -/
def closeServer (plat : Platform) (h : DeviceHandle) (os : Os) (r : CloseReplies) :
    Ret DeviceHandle := Socket.close plat h false os r

/-- The close function of each class. -/
def closeOf : Kind → Platform → DeviceHandle → Os → CloseReplies → Ret DeviceHandle
  | .file => closeFile
  | .localServer | .tcpServer => closeServer
  | _ => closeSocket

/-- The members `close`. -/
def close (plat : Platform) (o : Obj) (os : Os) (r : CloseReplies) : Ret Obj :=
  let c := closeOf o.kind plat o.h os r
  ⟨{ o with h := c.value }, c.ec, c.os⟩

end Obj

/-- A `device`: a null pointer, or a pointer to the object it owns. -/
abbrev Device := Option Obj

/-- `make_file`. -/
def makeFile (plat : Platform) (os : Os) (path : Bytes) (oflags perms : Nat) (reply : FdReply)
    (ec : ErrorCode) : Ret Device :=
  let c := File.open_ plat os path oflags perms reply ec
  ⟨if c.ec.isSet then none else some (.ofHandle .file c.value), c.ec, c.os⟩

/-- `make_local_socket`. -/
def makeLocalSocket (plat : Platform) (os : Os) (name : Bytes) (nonblocking : Bool)
    (r : Local.OpenReplies) (ec : ErrorCode) : Ret Device :=
  let c := Local.open_ plat os name nonblocking r ec
  ⟨if c.ec.isSet then none else some (.ofHandle .localSocket c.value), c.ec, c.os⟩

/-- `make_tcp_socket`. -/
def makeTcpSocket (plat : Platform) (os : Os) (res : Resolver) (servername : Bytes)
    (port : UInt16) (nonblocking : Bool) (inet : InetReplies) (r : Tcp.OpenReplies)
    (ec : ErrorCode) : Option (Ret Device) :=
  (Tcp.open_ plat os res servername port nonblocking inet r ec).map fun c =>
    ⟨if c.ec.isSet then none else some (.ofHandle .tcpSocket c.value), c.ec, c.os⟩

/-- `make_udp_socket`. -/
def makeUdpSocket (plat : Platform) (os : Os) (res : Resolver) (servername : Bytes)
    (port : UInt16) (nonblocking : Bool) (inet : InetReplies) (ec : ErrorCode) :
    Option (Ret Device) :=
  (Udp.open_ plat os res servername port nonblocking (some .zero) inet ec).map fun c =>
    ⟨if c.ec.isSet then none
      else some (.ofHandle .udpSocket c.value.1 (c.value.2.getD .zero)), c.ec, c.os⟩

/-- `make_local_server`. -/
def makeLocalServer (plat : Platform) (os : Os) (name : Bytes) (nonblocking : Bool)
    (maxPendingConnections : Int) (r : Local.ServerReplies) (ec : ErrorCode) : Ret Obj :=
  let c := Local.openServer plat os name nonblocking maxPendingConnections r ec
  ⟨if c.ec.isSet then .default .localServer else .ofHandle .localServer c.value, c.ec, c.os⟩

/-- `make_tcp_server`. -/
def makeTcpServer (plat : Platform) (os : Os) (res : Resolver) (servername : Bytes)
    (port : UInt16) (nonblocking : Bool) (maxPendingConnections : Int) (inet : InetReplies)
    (r : Tcp.ServerReplies) (ec : ErrorCode) : Option (Ret Obj) :=
  (Tcp.openServer plat os res servername port nonblocking maxPendingConnections inet r ec).map
    fun c => ⟨if c.ec.isSet then .default .tcpServer else .ofHandle .tcpServer c.value, c.ec, c.os⟩

/-- `make_udp_server`. -/
def makeUdpServer (plat : Platform) (os : Os) (res : Resolver) (servername : Bytes)
    (port : UInt16) (nonblocking : Bool) (inet : InetReplies) (r : Tcp.ServerReplies)
    (ec : ErrorCode) : Option (Ret Obj) :=
  (Udp.openServer plat os res servername port nonblocking inet r ec).map fun c =>
    ⟨if c.ec.isSet then .default .udpServer else .ofHandle .udpServer c.value, c.ec, c.os⟩

/-- `local_server::accept`. -/
def acceptLocal (plat : Platform) (os : Os) (server : Obj) (reply : FdReply) (ec : ErrorCode) :
    Ret Device :=
  let c := Local.accept plat os server.h reply ec
  ⟨if c.ec.isSet then none else some (.ofHandle .localPeer c.value), c.ec, c.os⟩

/-- `tcp_server::accept`. -/
def acceptTcp (plat : Platform) (os : Os) (server : Obj) (reply : FdReply) (ec : ErrorCode) :
    Ret Device :=
  let c := Tcp.accept plat os server.h reply ec
  ⟨if c.ec.isSet then none else some (.ofHandle .tcpPeer c.value), c.ec, c.os⟩

end PfsIo
