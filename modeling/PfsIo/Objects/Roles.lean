import PfsIo.Objects.Destination
import PfsIo.Objects.OpenMode

/-!
# What sockets are made for

The address that a socket was made for: that of a server, or the one that a client is connected to
or writes to. It is the address in the last calls of the factories.

## Main definitions

* `Role` — a server's or a client's address.
* `FactoryCall.role` — the role of what a call returns.

## Main results

* `FactoryCall.calls_makeLocalServer`, `FactoryCall.calls_makeTcpServer` — servers are bound before
  they listen, unless `setsockopt` has failed.
-/

namespace PfsIo

open Library

/-- What a descriptor was made for. -/
inductive Role where
  | server (addr : Bytes)
  | client (addr : Bytes)
  | other
  deriving DecidableEq

/-- The address that the calls for TCP and UDP sockets select. -/
def selectedAddr (res : Resolver) (servername : Bytes) (port : UInt16) (socktype : Nat) :
    Option Bytes :=
  (resultAddr res servername port socktype).map fun addrs =>
    setSinPort (addrs.entry addrs.first).addr port

namespace FactoryCall

/-- The role of what a call returns; an accepted peer has that of its server. A TCP or UDP server
whose `setsockopt` fails is not bound. -/
def role (role : Int → Role) : FactoryCall → Role
  | .makeFile _ _ _ _ => .other
  | .makeLocalSocket name _ _ => .client (Local.sockaddrUn name)
  | .makeTcpSocket res servername port nonblocking _ _ =>
    (selectedAddr res servername port (inetSockType sockStream nonblocking)).elim .other .client
  | .makeUdpSocket res servername port nonblocking _ =>
    (selectedAddr res servername port (inetSockType sockDgram nonblocking)).elim .other .client
  | .makeLocalServer name _ _ _ => .server (Local.sockaddrUn name)
  | .makeTcpServer res servername port nonblocking _ _ r =>
    if r.setsockopt.isOk then
      (selectedAddr res servername port (inetSockType sockStream nonblocking)).elim .other .server
    else .other
  | .makeUdpServer res servername port nonblocking _ r =>
    if r.setsockopt.isOk then
      (selectedAddr res servername port (inetSockType sockDgram nonblocking)).elim .other .server
    else .other
  | .acceptLocal server _ | .acceptTcp server _ => role server.h.fd

variable {plat : Platform} {os : Os} {ec : ErrorCode} {call : FactoryCall} {c : Ret Obj}
  {name addr : Bytes} {label : Int → Role}

section Inet

variable {res : Resolver} {servername : Bytes} {port : UInt16} {nonblocking : Bool}
  {inet : InetReplies} {baseSocktype : Nat} {d : Ret (Int × Bytes)} {kind : Kind}

/-- What a caller of `open_inet_socket` has got when it returns without an error: the selected
address, and the descriptor of the first attempt. -/
theorem selected_of_proceeds (last : Ret (Int × Bytes) → Ret DeviceHandle) {fails : Prop}
    (hd : openInetSocket plat os res servername port baseSocktype nonblocking inet ec = some d)
    (hec : (lastObj kind (last d)).ec.isSet = false)
    (hneg : d.value.1 < 0 → last d = ⟨⟨-1⟩, d.ec, d.os⟩)
    (hend : 0 ≤ d.value.1 → Proceeds d fails (last d)) :
    ¬ fails ∧ ∃ addrs a, 0 ≤ a.pick os.opened ∧ d = firstResult os port addrs ec a ∧
      (lastObj kind (last d)).value.h.fd = a.pick os.opened ∧
      selectedAddr res servername port (inetSockType baseSocktype nonblocking) =
        some (setSinPort (addrs.entry addrs.first).addr port) := by
  obtain ⟨hclear, hfd, hvalue⟩ := delivered_of_proceeds hd hec hneg hend
  obtain ⟨-, addrs, a, rest, hres, -, rfl⟩ := first_of_clear hd hclear
  have hhandle : (last (firstResult os port addrs ec a)).value = ⟨a.pick os.opened⟩ := hvalue
  refine ⟨?_, addrs, a, hfd, rfl, ?_, by rw [selectedAddr, hres]; rfl⟩
  swap
  · simp [lastObj, Obj.ofHandle, hhandle, DeviceHandle.swap_eq]
  cases hend hfd with
  | kept hok _ _ _ _ => exact hok
  | closed _ hset _ _ => simp [lastObj, hset] at hec

/-- The last call of `make_tcp_socket`. -/
theorem calls_makeTcpSocket {r : Tcp.OpenReplies}
    (hc : (makeTcpSocket res servername port nonblocking inet r).attempt plat os ec = some c)
    (hec : c.ec.isSet = false) : ∃ calls addr,
      selectedAddr res servername port (inetSockType sockStream nonblocking) = some addr ∧
      callsSince os c.os = calls ++ [.connect c.value.h.fd addr 0] := by
  rw [attempt_makeTcpSocket] at hc
  obtain ⟨d, hd, rfl⟩ := Option.map_eq_some_iff.mp hc
  obtain ⟨hok, addrs, a, hfd, rfl, hvalue, hselected⟩ := selected_of_proceeds
    (Tcp.connectTo plat · r) hd hec
    (fun hneg => Tcp.connectTo_of_neg hneg r) (fun hfd => Tcp.connectTo_proceeds hfd r)
  obtain ⟨u, hconnect⟩ := isOk_iff.mp (Bool.not_eq_false _ ▸ hok)
  rw [hvalue]
  refine ⟨[AddressLoop.socketCall addrs addrs.first (a.pick os.opened)], _, hselected,
    callsSince_of_append ?_⟩
  simp [lastObj, firstResult, Tcp.connectTo, hfd, hconnect]

/-- The calls of `make_tcp_server`. -/
theorem calls_makeTcpServer {n : Int} {r : Tcp.ServerReplies}
    (hc : (makeTcpServer res servername port nonblocking n inet r).attempt plat os ec = some c)
    (hec : c.ec.isSet = false) :
    0 ≤ c.value.h.fd ∧ ∃ family socktype protocol addr,
      selectedAddr res servername port (inetSockType sockStream nonblocking) = some addr ∧
      callsSince os c.os = .socket family socktype protocol c.value.h.fd ::
        if r.setsockopt.isOk then [.setReuseAddr c.value.h.fd 0, .bind c.value.h.fd addr 0,
          .listen c.value.h.fd n 0]
        else [.setReuseAddr c.value.h.fd (-1)] := by
  rw [attempt_makeTcpServer] at hc
  obtain ⟨d, hd, rfl⟩ := Option.map_eq_some_iff.mp hc
  obtain ⟨hok, addrs, a, hfd, rfl, hvalue, hselected⟩ := selected_of_proceeds
    (Tcp.listenAt plat · n r) hd hec
    (fun hneg => Tcp.listenAt_of_neg hneg n r) (fun hfd => Tcp.listenAt_proceeds hfd n r)
  rw [hvalue]
  refine ⟨hfd, (addrs.entry addrs.first).family, (addrs.entry addrs.first).socktype,
    (addrs.entry addrs.first).protocol, _, hselected, callsSince_of_append ?_⟩
  cases hset : r.setsockopt with
  | error e => simp [lastObj, firstResult, Tcp.listenAt, hfd, hset, AddressLoop.socketCall]
  | ok u =>
    obtain ⟨hbind, hlisten⟩ : r.bind.isOk = true ∧ r.listen.isOk = true := by
      simpa [hset] using hok
    obtain ⟨v, hbind⟩ := isOk_iff.mp hbind
    obtain ⟨w, hlisten⟩ := isOk_iff.mp hlisten
    simp [lastObj, firstResult, Tcp.listenAt, hfd, hset, hbind, hlisten, AddressLoop.socketCall]

/-- The last call of `make_udp_server`, and the address in it. -/
theorem calls_makeUdpServer {r : Tcp.ServerReplies} (hset : r.setsockopt.isOk = true)
    (hc : (makeUdpServer res servername port nonblocking inet r).attempt plat os ec = some c)
    (hec : c.ec.isSet = false) : ∃ calls addr,
      selectedAddr res servername port (inetSockType sockDgram nonblocking) = some addr ∧
      callsSince os c.os = calls ++ [.bind c.value.h.fd addr 0] := by
  rw [attempt_makeUdpServer] at hc
  obtain ⟨d, hd, rfl⟩ := Option.map_eq_some_iff.mp hc
  obtain ⟨hok, addrs, a, hfd, rfl, hvalue, hselected⟩ := selected_of_proceeds
    (Udp.bindTo plat · r) hd hec
    (fun hneg => Udp.bindTo_of_neg hneg r) (fun hfd => Udp.bindTo_proceeds hfd r)
  obtain ⟨u, hsetsockopt⟩ := isOk_iff.mp hset
  obtain ⟨v, hbind⟩ : ∃ v, r.bind = .ok v := isOk_iff.mp (by simpa [hset] using hok)
  rw [hvalue]
  refine ⟨[AddressLoop.socketCall addrs addrs.first (a.pick os.opened),
    .setReuseAddr (a.pick os.opened) 0], _, hselected, callsSince_of_append ?_⟩
  simp [lastObj, firstResult, Udp.bindTo, hfd, hsetsockopt, hbind]

/-- The address of a new UDP socket. -/
theorem addr_makeUdpSocket
    (hc : (makeUdpSocket res servername port nonblocking inet).attempt plat os ec = some c)
    (hec : c.ec.isSet = false) : ∃ addr,
      selectedAddr res servername port (inetSockType sockDgram nonblocking) = some addr ∧
      c.value.addr.bytes = padAddr addr := by
  rw [attempt_makeUdpSocket] at hc
  obtain ⟨d, hd, rfl⟩ := Option.map_eq_some_iff.mp hc
  obtain ⟨-, addrs, a, rest, hres, -, rfl⟩ := first_of_clear hd hec
  refine ⟨_, by rw [selectedAddr, hres]; rfl, ?_⟩
  simp only [Udp.storeAddress, Option.map_some, Option.getD_some, Obj.ofHandle,
    HostAddress.swap_eq]
  exact memcpy_zero_bytes _

end Inet

/-- The last call of `make_local_socket`. -/
theorem calls_makeLocalSocket {nonblocking : Bool} {r : Local.OpenReplies}
    (hc : (makeLocalSocket name nonblocking r).attempt plat os ec = some c)
    (hec : c.ec.isSet = false) :
    ∃ calls, callsSince os c.os = calls ++ [.connect c.value.h.fd (Local.sockaddrUn name) 0] := by
  obtain rfl := Option.some.inj hc
  obtain ⟨hclear, hfit, hsocket, hconnect⟩ : ec.isSet = false ∧ Local.Fits name ∧
      r.socket.isOk = true ∧ r.connect.isOk = true := by
    simpa using (Local.isSet_open plat os nonblocking ec).not.mp (by simpa using hec)
  obtain ⟨a, hsocket⟩ := isOk_iff.mp hsocket
  obtain ⟨u, hconnect⟩ := isOk_iff.mp hconnect
  refine ⟨[Local.socketCall nonblocking (a.pick os.opened)], ?_⟩
  simp only [Local.open_of_connected plat os nonblocking ec hfit hsocket hconnect,
    Local.cleanUp_of_clear _ _ _ _ hclear]
  exact callsSince_of_append (by simp [Obj.ofHandle])

/-- The calls of `make_local_server`. -/
theorem calls_makeLocalServer {nonblocking : Bool} {n : Int} {r : Local.ServerReplies}
    (hc : (makeLocalServer name nonblocking n r).attempt plat os ec = some c)
    (hec : c.ec.isSet = false) : 0 ≤ c.value.h.fd ∧ ∃ rc,
      callsSince os c.os = [Local.socketCall nonblocking c.value.h.fd,
        .unlink (cStr (Local.sunPath name)) rc, .bind c.value.h.fd (Local.sockaddrUn name) 0,
        .listen c.value.h.fd n 0] := by
  obtain rfl := Option.some.inj hc
  obtain ⟨hclear, hfit, hsocket, hbind, hlisten⟩ : ec.isSet = false ∧ Local.Fits name ∧
      r.socket.isOk = true ∧ r.bind.isOk = true ∧ r.listen.isOk = true := by
    simpa using (Local.isSet_openServer plat os nonblocking n ec).not.mp (by simpa using hec)
  obtain ⟨a, hsocket⟩ := isOk_iff.mp hsocket
  obtain ⟨u, hbind⟩ := isOk_iff.mp hbind
  obtain ⟨v, hlisten⟩ := isOk_iff.mp hlisten
  simp only [Local.openServer_of_socket plat os nonblocking n ec hfit hsocket,
    Local.serverCode_of_done plat ec (isOk_iff.mpr ⟨u, hbind⟩) (isOk_iff.mpr ⟨v, hlisten⟩),
    Local.cleanUp_of_clear _ _ _ _ hclear]
  refine ⟨a.nonneg _, Local.rcOf r.unlink, callsSince_of_append ?_⟩
  rw [Local.log_serverOs]
  simp [Local.serverCalls, Local.rcOf, hbind, hlisten, Obj.ofHandle]

/-- The call of the members `accept`. -/
theorem calls_accept {server : Obj} {reply : FdReply}
    (hcall : call = .acceptLocal server reply ∨ call = .acceptTcp server reply)
    (hc : call.attempt plat os ec = some c) (hec : c.ec.isSet = false) :
    0 ≤ c.value.h.fd ∧ callsSince os c.os = [.accept server.h.fd c.value.h.fd] := by
  cases reply with
  | error e =>
    rcases hcall with rfl | rfl <;> obtain rfl := Option.some.inj hc <;>
      simp [Local.accept, Tcp.accept] at hec
  | ok a =>
    have hfd := handleOf_pick a os.opened
    rcases hcall with rfl | rfl <;> obtain rfl := Option.some.inj hc <;>
      refine ⟨?_, callsSince_of_append ?_⟩ <;>
      simp [Local.accept, Tcp.accept, Obj.ofHandle, hfd, a.nonneg]

end FactoryCall

end PfsIo
