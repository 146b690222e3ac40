import PfsIo.Inet.AddressLoop
import PfsIo.Inet.ServerEnd

/-!
# The error code on entry of the factories

Each factory tests the caller's error code to see whether its own call has failed. A code
that was set before is therefore taken for a failure: the object that was opened is not
returned, and its descriptor is lost.

## Main results

* `FactoryCall.made_iff` — when the object does not depend on the code on entry.
* `Acceptor.counted_iff` — when a server returns as many devices as there are connections.
* `entry_error_iff` — both, and that no descriptor is lost.
-/

namespace PfsIo

open Library

/-- A call of one of the functions that make a device or a server, with its arguments
apart from the error code, and the answers to its system calls. -/
inductive FactoryCall where
  | makeFile (path : Bytes) (oflags perms : Nat) (reply : FdReply)
  | makeLocalSocket (name : Bytes) (nonblocking : Bool) (r : Local.OpenReplies)
  | makeTcpSocket (res : Resolver) (servername : Bytes) (port : UInt16) (nonblocking : Bool)
      (inet : InetReplies) (r : Tcp.OpenReplies)
  | makeUdpSocket (res : Resolver) (servername : Bytes) (port : UInt16) (nonblocking : Bool)
      (inet : InetReplies)
  | makeLocalServer (name : Bytes) (nonblocking : Bool) (maxPendingConnections : Int)
      (r : Local.ServerReplies)
  | makeTcpServer (res : Resolver) (servername : Bytes) (port : UInt16) (nonblocking : Bool)
      (maxPendingConnections : Int) (inet : InetReplies) (r : Tcp.ServerReplies)
  | makeUdpServer (res : Resolver) (servername : Bytes) (port : UInt16) (nonblocking : Bool)
      (inet : InetReplies) (r : Tcp.ServerReplies)
  | acceptLocal (server : Obj) (reply : FdReply)
  | acceptTcp (server : Obj) (reply : FdReply)

namespace FactoryCall

/-- The object that the call returns, if it returns; a server is never null. -/
def made (plat : Platform) (os : Os) (ec : ErrorCode) : FactoryCall → Option Device
  | makeFile path oflags perms reply =>
    some (PfsIo.makeFile plat os path oflags perms reply ec).value
  | makeLocalSocket name nonblocking r =>
    some (PfsIo.makeLocalSocket plat os name nonblocking r ec).value
  | makeTcpSocket res servername port nonblocking inet r =>
    (PfsIo.makeTcpSocket plat os res servername port nonblocking inet r ec).map (·.value)
  | makeUdpSocket res servername port nonblocking inet =>
    (PfsIo.makeUdpSocket plat os res servername port nonblocking inet ec).map (·.value)
  | makeLocalServer name nonblocking n r =>
    some (some (PfsIo.makeLocalServer plat os name nonblocking n r ec).value)
  | makeTcpServer res servername port nonblocking n inet r =>
    (PfsIo.makeTcpServer plat os res servername port nonblocking n inet r ec).map
      fun c => some c.value
  | makeUdpServer res servername port nonblocking inet r =>
    (PfsIo.makeUdpServer plat os res servername port nonblocking inet r ec).map
      fun c => some c.value
  | acceptLocal server reply => some (PfsIo.acceptLocal plat os server reply ec).value
  | acceptTcp server reply => some (PfsIo.acceptTcp plat os server reply ec).value

/-- The answers of the kernel and the resolver let the call succeed. A server for which
`setsockopt` fails is not bound, but counts as opened. -/
def Delivers : FactoryCall → Prop
  | makeFile _ _ _ reply => reply.isOk = true
  | makeLocalSocket name _ r =>
    name.length + 1 ≤ Local.sunPathSize ∧ r.socket.isOk = true ∧ r.connect.isOk = true
  | makeTcpSocket res servername port nonblocking inet r =>
    FirstWorks res servername port (inetSockType sockStream nonblocking) inet ∧
      r.connect.isOk = true
  | makeUdpSocket res servername port nonblocking inet =>
    FirstWorks res servername port (inetSockType sockDgram nonblocking) inet
  | makeLocalServer name _ _ r =>
    name.length + 1 ≤ Local.sunPathSize ∧ r.socket.isOk = true ∧ r.bind.isOk = true ∧
      r.listen.isOk = true
  | makeTcpServer res servername port nonblocking _ inet r =>
    FirstWorks res servername port (inetSockType sockStream nonblocking) inet ∧
      (r.setsockopt.isOk = true → r.bind.isOk = true ∧ r.listen.isOk = true)
  | makeUdpServer res servername port nonblocking inet r =>
    FirstWorks res servername port (inetSockType sockDgram nonblocking) inet ∧
      (r.setsockopt.isOk = true → r.bind.isOk = true)
  | acceptLocal _ reply => reply.isOk = true
  | acceptTcp _ reply => reply.isOk = true

/-- What is returned for a failure: a null device, or a server that is not open. -/
def refused : FactoryCall → Device
  | makeLocalServer _ _ _ _ => some (.default .localServer)
  | makeTcpServer _ _ _ _ _ _ _ => some (.default .tcpServer)
  | makeUdpServer _ _ _ _ _ _ => some (.default .udpServer)
  | _ => none

/-- The call of the platform function, with the object made of the handle it returns. -/
def attempt (plat : Platform) (os : Os) (ec : ErrorCode) : FactoryCall → Option (Ret Obj)
  | makeFile path oflags perms reply =>
    let c := File.open_ plat os path oflags perms reply ec
    some ⟨.ofHandle .file c.value, c.ec, c.os⟩
  | makeLocalSocket name nonblocking r =>
    let c := Local.open_ plat os name nonblocking r ec
    some ⟨.ofHandle .localSocket c.value, c.ec, c.os⟩
  | makeTcpSocket res servername port nonblocking inet r =>
    (Tcp.open_ plat os res servername port nonblocking inet r ec).map fun c =>
      ⟨.ofHandle .tcpSocket c.value, c.ec, c.os⟩
  | makeUdpSocket res servername port nonblocking inet =>
    (Udp.open_ plat os res servername port nonblocking (some .zero) inet ec).map fun c =>
      ⟨.ofHandle .udpSocket c.value.1 (c.value.2.getD .zero), c.ec, c.os⟩
  | makeLocalServer name nonblocking n r =>
    let c := Local.openServer plat os name nonblocking n r ec
    some ⟨.ofHandle .localServer c.value, c.ec, c.os⟩
  | makeTcpServer res servername port nonblocking n inet r =>
    (Tcp.openServer plat os res servername port nonblocking n inet r ec).map fun c =>
      ⟨.ofHandle .tcpServer c.value, c.ec, c.os⟩
  | makeUdpServer res servername port nonblocking inet r =>
    (Udp.openServer plat os res servername port nonblocking inet r ec).map fun c =>
      ⟨.ofHandle .udpServer c.value, c.ec, c.os⟩
  | acceptLocal server reply =>
    let c := Local.accept plat os server.h reply ec
    some ⟨.ofHandle .localPeer c.value, c.ec, c.os⟩
  | acceptTcp server reply =>
    let c := Tcp.accept plat os server.h reply ec
    some ⟨.ofHandle .tcpPeer c.value, c.ec, c.os⟩

variable {plat : Platform} {os : Os} {ec : ErrorCode} {call : FactoryCall}

theorem made_eq (plat : Platform) (os : Os) (ec : ErrorCode) (call : FactoryCall) :
    call.made plat os ec = (call.attempt plat os ec).map fun c =>
      if c.ec.isSet then call.refused else some c.value := by
  cases call <;>
    simp only [made, attempt, refused, PfsIo.makeFile, PfsIo.makeLocalSocket, PfsIo.makeTcpSocket,
      PfsIo.makeUdpSocket, PfsIo.makeLocalServer, PfsIo.makeTcpServer, PfsIo.makeUdpServer,
      PfsIo.acceptLocal, PfsIo.acceptTcp, Option.map_map, Function.comp_def, Option.map_some,
      apply_ite some]

/-- What the call does when the answers let it succeed: the code on entry stays as it
is, and the object does not depend on it if it is not set. -/
def Succeeds (plat : Platform) (os : Os) (call : FactoryCall) : Prop :=
  ∃ o, 0 ≤ o.h.fd ∧ ∀ ec, ∃ c, call.attempt plat os ec = some c ∧ c.ec = ec ∧
    (ec.isSet = false → c.value = o)

/-- What the call does when the answers do not let it succeed: it ends with the code set,
if it ends. -/
structure Fails (plat : Platform) (os : Os) (call : FactoryCall) : Prop where
  ends : ∀ ec ec', (call.attempt plat os ec).isSome = (call.attempt plat os ec').isSome
  isSet : ∀ ec c, call.attempt plat os ec = some c → c.ec.isSet = true

/-- A call that ends on every code, with the code set, fails. -/
theorem fails_of_isSet {c : ErrorCode → Ret Obj} (h : ∀ ec, call.attempt plat os ec = some (c ec))
    (hisSet : ∀ ec, (c ec).ec.isSet = true) : Fails plat os call := by
  refine ⟨fun ec ec' => ?_, fun ec d hd => ?_⟩
  · rw [h, h, Option.isSome_some, Option.isSome_some]
  · rw [h] at hd
    obtain rfl := Option.some.inj hd
    exact hisSet ec

section Inet

variable {res : Resolver} {servername : Bytes} {port : UInt16} {baseSocktype : Nat}
  {nonblocking : Bool} {inet : InetReplies}

/-- A call whose last part makes its object of a descriptor and keeps the code succeeds if
`open_inet_socket` delivers a descriptor. -/
theorem succeeds_of_inet (last : Ret (Int × Bytes) → Ret Obj) (make : Int × Bytes → Obj)
    (h : ∀ ec, call.attempt plat os ec =
      (openInetSocket plat os res servername port baseSocktype nonblocking inet ec).map last)
    (hmake : ∀ v, (make v).h.fd = v.1)
    (hlast : ∀ c, 0 ≤ c.value.1 → (last c).value = make c.value ∧ (last c).ec = c.ec)
    (hfirst : FirstWorks res servername port (inetSockType baseSocktype nonblocking) inet) :
    Succeeds plat os call := by
  obtain ⟨fd, addr, hfd, hopen⟩ := openInetSocket_of_works plat os hfirst
  refine ⟨make (fd, addr), by rwa [hmake], fun ec => ?_⟩
  obtain ⟨c, hc, hvalue, rfl⟩ := hopen ec
  obtain ⟨hobj, hec⟩ := hlast c (by rwa [hvalue])
  refine ⟨last c, by rw [h, hc, Option.map_some], hec, fun _ => ?_⟩
  rw [hobj, hvalue]

/-- A call whose last part ends with the code set when it is given it so, or a descriptor
that it cannot use, fails. -/
theorem fails_of_inet (last : Ret (Int × Bytes) → Ret Obj) (usable : Prop)
    (h : ∀ ec, call.attempt plat os ec =
      (openInetSocket plat os res servername port baseSocktype nonblocking inet ec).map last)
    (hlast : ∀ c, c.ec.isSet = true ∨ 0 ≤ c.value.1 ∧ ¬ usable → (last c).ec.isSet = true)
    (hno : ¬ (FirstWorks res servername port (inetSockType baseSocktype nonblocking) inet ∧
      usable)) : Fails plat os call := by
  refine ⟨fun ec ec' => ?_, fun ec c hc => ?_⟩
  · rw [h, h, Option.isSome_map, Option.isSome_map, openInetSocket_isSome]
  · rw [h] at hc
    obtain ⟨d, hd, rfl⟩ := Option.map_eq_some_iff.mp hc
    apply hlast
    by_cases hfirst : FirstWorks res servername port (inetSockType baseSocktype nonblocking) inet
    · right
      obtain ⟨fd, addr, hfd, hopen⟩ := openInetSocket_of_works plat os hfirst
      obtain ⟨d', hd', hvalue, -⟩ := hopen ec
      obtain rfl := Option.some.inj (hd.symm.trans hd')
      exact ⟨by rw [hvalue]; exact hfd, fun husable => hno ⟨hfirst, husable⟩⟩
    · left
      exact openInetSocket_isSet hfirst hd

/-- The object that a call makes of the handle its last part returns. -/
def lastObj (kind : Kind) (c : Ret DeviceHandle) : Ret Obj := ⟨.ofHandle kind c.value, c.ec, c.os⟩

variable (plat os res servername port nonblocking inet)

theorem attempt_makeTcpSocket (r : Tcp.OpenReplies) (ec : ErrorCode) :
    (makeTcpSocket res servername port nonblocking inet r).attempt plat os ec =
      (openInetSocket plat os res servername port sockStream nonblocking inet ec).map
        fun c => lastObj .tcpSocket (Tcp.connectTo plat c r) := by
  simp only [attempt, Tcp.open_, Option.map_map, Function.comp_def]
  rfl

theorem attempt_makeUdpSocket (ec : ErrorCode) :
    (makeUdpSocket res servername port nonblocking inet).attempt plat os ec =
      (openInetSocket plat os res servername port sockDgram nonblocking inet ec).map fun c =>
        ⟨.ofHandle .udpSocket (Udp.storeAddress c (some .zero)).value.1
          ((Udp.storeAddress c (some .zero)).value.2.getD .zero), c.ec, c.os⟩ := by
  simp only [attempt, Udp.open_, Option.map_map, Function.comp_def]
  rfl

theorem attempt_makeTcpServer (n : Int) (r : Tcp.ServerReplies) (ec : ErrorCode) :
    (makeTcpServer res servername port nonblocking n inet r).attempt plat os ec =
      (openInetSocket plat os res servername port sockStream nonblocking inet ec).map
        fun c => lastObj .tcpServer (Tcp.listenAt plat c n r) := by
  simp only [attempt, Tcp.openServer, Option.map_map, Function.comp_def]
  rfl

theorem attempt_makeUdpServer (r : Tcp.ServerReplies) (ec : ErrorCode) :
    (makeUdpServer res servername port nonblocking inet r).attempt plat os ec =
      (openInetSocket plat os res servername port sockDgram nonblocking inet ec).map
        fun c => lastObj .udpServer (Udp.bindTo plat c r) := by
  simp only [attempt, Udp.openServer, Option.map_map, Function.comp_def]
  rfl

end Inet

theorem connectTo_of_connected {c : Ret (Int × Bytes)} (hfd : 0 ≤ c.value.1)
    {r : Tcp.OpenReplies} (h : r.connect.isOk = true) :
    (Tcp.connectTo plat c r).value = ⟨c.value.1⟩ ∧ (Tcp.connectTo plat c r).ec = c.ec := by
  obtain ⟨u, hconnect⟩ := isOk_iff.mp h
  simp [Tcp.connectTo, hfd, hconnect, handleOf_of_nonneg hfd]

theorem isSet_connectTo {c : Ret (Int × Bytes)} (r : Tcp.OpenReplies)
    (h : c.ec.isSet = true ∨ 0 ≤ c.value.1 ∧ ¬ r.connect.isOk = true) :
    (Tcp.connectTo plat c r).ec.isSet = true := by
  obtain ⟨connect, close⟩ := r
  by_cases hfd : 0 ≤ c.value.1
  · cases connect with
    | ok u => simpa [Tcp.connectTo, hfd, Except.isOk, Except.toBool] using h
    | error e => simp [Tcp.connectTo, hfd]
  · simpa [Tcp.connectTo, hfd] using h

/-- A server function ends with the code set if it is given it so, or a descriptor on which a
step fails that matters. -/
theorem isSet_of_serverEnd {c : Ret (Int × Bytes)} {d : Ret DeviceHandle} {option done : Prop}
    {steps : List Call} (hneg : c.value.1 < 0 → d = ⟨⟨-1⟩, c.ec, c.os⟩)
    (hend : 0 ≤ c.value.1 → ServerEnd option done steps c d)
    (h : c.ec.isSet = true ∨ 0 ≤ c.value.1 ∧ ¬ (option → done)) : d.ec.isSet = true := by
  rcases h with hec | ⟨hfd, hundone⟩
  · rcases Int.lt_or_le c.value.1 0 with hlt | hfd
    · rw [hneg hlt, hec]
    · exact (hend hfd).isSet_of_isSet hec
  · obtain ⟨hset, hundone⟩ := Classical.not_imp.mp hundone
    exact (hend hfd).isSet_of_undone hset hundone

theorem lastObj_of_kept {kind : Kind} {c : Ret (Int × Bytes)} {d : Ret DeviceHandle}
    (h : d.value = ⟨c.value.1⟩ ∧ d.ec = c.ec) :
    (lastObj kind d).value = .ofHandle kind ⟨c.value.1⟩ ∧ (lastObj kind d).ec = c.ec :=
  ⟨congrArg (Obj.ofHandle kind) h.1, h.2⟩

theorem Delivers.succeeds (plat : Platform) (os : Os) (h : call.Delivers) :
    Succeeds plat os call := by
  cases call with
  | makeFile path oflags perms reply =>
    obtain ⟨a, rfl⟩ := isOk_iff.mp h
    refine ⟨.ofHandle .file ⟨a.pick os.opened⟩, a.nonneg _, fun ec => ⟨_, rfl, ?_, fun _ => ?_⟩⟩
    all_goals simp [File.open_, a.nonneg]
  | makeLocalSocket name nonblocking r =>
    obtain ⟨hfit, hsocket, hconnect⟩ := h
    obtain ⟨a, hsocket⟩ := isOk_iff.mp hsocket
    obtain ⟨u, hconnect⟩ := isOk_iff.mp hconnect
    refine ⟨.ofHandle .localSocket ⟨a.pick os.opened⟩, a.nonneg _,
      fun ec => ⟨_, rfl, ?_, fun hec => ?_⟩⟩
    · simp only [Local.open_of_connected plat os nonblocking ec hfit hsocket hconnect,
        Local.cleanUp_ec]
    · simp only [Local.open_of_connected plat os nonblocking ec hfit hsocket hconnect,
        Local.cleanUp_of_clear _ _ _ _ hec, Os.newFd_ok]
  | makeTcpSocket res servername port nonblocking inet r =>
    refine succeeds_of_inet _ (fun v => .ofHandle .tcpSocket ⟨v.1⟩)
      (attempt_makeTcpSocket plat os res servername port nonblocking inet r) (fun _ => rfl) ?_ h.1
    intro c hfd
    exact lastObj_of_kept (connectTo_of_connected hfd h.2)
  | makeUdpSocket res servername port nonblocking inet =>
    refine succeeds_of_inet _ (fun v => .ofHandle .udpSocket ⟨v.1⟩
        (HostAddress.zero.memcpy (v.2.take (min v.2.length 28))))
      (attempt_makeUdpSocket plat os res servername port nonblocking inet) (fun _ => rfl) ?_ h
    intro c hfd
    simp [Udp.storeAddress, handleOf_of_nonneg hfd]
  | makeLocalServer name nonblocking n r =>
    obtain ⟨hfit, hsocket, hbind, hlisten⟩ := h
    obtain ⟨a, hsocket⟩ := isOk_iff.mp hsocket
    refine ⟨.ofHandle .localServer ⟨a.pick os.opened⟩, a.nonneg _,
      fun ec => ⟨_, rfl, ?_, fun hec => ?_⟩⟩
    · simp only [Local.openServer_of_socket plat os nonblocking n ec hfit hsocket,
        Local.serverCode_of_done plat ec hbind hlisten, Local.cleanUp_ec]
    · simp only [Local.openServer_of_socket plat os nonblocking n ec hfit hsocket,
        Local.serverCode_of_done plat ec hbind hlisten, Local.cleanUp_of_clear _ _ _ _ hec]
  | makeTcpServer res servername port nonblocking n inet r =>
    refine succeeds_of_inet _ (fun v => .ofHandle .tcpServer ⟨v.1⟩)
      (attempt_makeTcpServer plat os res servername port nonblocking inet n r) (fun _ => rfl) ?_ h.1
    intro c hfd
    exact lastObj_of_kept ((Tcp.listenAt_end hfd n r).kept h.2)
  | makeUdpServer res servername port nonblocking inet r =>
    refine succeeds_of_inet _ (fun v => .ofHandle .udpServer ⟨v.1⟩)
      (attempt_makeUdpServer plat os res servername port nonblocking inet r) (fun _ => rfl) ?_ h.1
    intro c hfd
    exact lastObj_of_kept ((Udp.bindTo_end hfd r).kept h.2)
  | acceptLocal server reply =>
    obtain ⟨a, rfl⟩ := isOk_iff.mp h
    refine ⟨.ofHandle .localPeer ⟨a.pick os.opened⟩, a.nonneg _,
      fun ec => ⟨_, rfl, ?_, fun _ => ?_⟩⟩
    all_goals simp [Local.accept, Int.not_lt.mpr (a.nonneg _), handleOf_pick]
  | acceptTcp server reply =>
    obtain ⟨a, rfl⟩ := isOk_iff.mp h
    refine ⟨.ofHandle .tcpPeer ⟨a.pick os.opened⟩, a.nonneg _, fun ec => ⟨_, rfl, ?_, fun _ => ?_⟩⟩
    all_goals simp [Tcp.accept, Int.not_lt.mpr (a.nonneg _), handleOf_pick]

theorem Delivers.fails (plat : Platform) (os : Os) (h : ¬ call.Delivers) : Fails plat os call := by
  cases call with
  | makeFile path oflags perms reply =>
    obtain ⟨e, rfl⟩ := isOk_eq_false_iff.mp h
    refine fails_of_isSet (fun _ => rfl) fun ec => ?_
    simp [File.open_]
  | makeLocalSocket name nonblocking r =>
    refine fails_of_isSet (fun _ => rfl) fun ec => ?_
    exact (Local.isSet_open plat os nonblocking ec).mpr (.inr h)
  | makeTcpSocket res servername port nonblocking inet r =>
    refine fails_of_inet _ _
      (attempt_makeTcpSocket plat os res servername port nonblocking inet r) ?_ h
    intro c hc
    exact isSet_connectTo r hc
  | makeUdpSocket res servername port nonblocking inet =>
    refine fails_of_inet _ True
      (attempt_makeUdpSocket plat os res servername port nonblocking inet) ?_ (fun hno => h hno.1)
    intro c hc
    exact hc.resolve_right (by simp)
  | makeLocalServer name nonblocking n r =>
    refine fails_of_isSet (fun _ => rfl) fun ec => ?_
    exact (Local.isSet_openServer plat os nonblocking n ec).mpr (.inr h)
  | makeTcpServer res servername port nonblocking n inet r =>
    refine fails_of_inet _ _
      (attempt_makeTcpServer plat os res servername port nonblocking inet n r) ?_ h
    intro c hc
    exact isSet_of_serverEnd (fun hneg => Tcp.listenAt_of_neg hneg n r)
      (fun hfd => Tcp.listenAt_end hfd n r) hc
  | makeUdpServer res servername port nonblocking inet r =>
    refine fails_of_inet _ _
      (attempt_makeUdpServer plat os res servername port nonblocking inet r) ?_ h
    intro c hc
    exact isSet_of_serverEnd (fun hneg => Udp.bindTo_of_neg hneg r)
      (fun hfd => Udp.bindTo_end hfd r) hc
  | acceptLocal server reply =>
    obtain ⟨e, rfl⟩ := isOk_eq_false_iff.mp h
    refine fails_of_isSet (fun _ => rfl) fun ec => ?_
    simp [Local.accept]
  | acceptTcp server reply =>
    obtain ⟨e, rfl⟩ := isOk_eq_false_iff.mp h
    refine fails_of_isSet (fun _ => rfl) fun ec => ?_
    simp [Tcp.accept]

theorem refused_ne {o : Obj} (h : 0 ≤ o.h.fd) : call.refused ≠ some o := by
  intro heq
  cases call <;> simp only [refused, Option.some.injEq, reduceCtorEq] at heq
  all_goals
    subst heq
    exact absurd h (by decide)

/-- The object is the one returned for a clear code exactly when the code is clear or the
call could not succeed anyway. -/
theorem made_iff (plat : Platform) (os : Os) (ec : ErrorCode) (call : FactoryCall) :
    call.made plat os ec = call.made plat os .clear ↔ ec.isSet = false ∨ ¬ call.Delivers := by
  by_cases h : call.Delivers
  · obtain ⟨o, hfd, hattempt⟩ := h.succeeds plat os
    obtain ⟨c, hc, rfl, hvalue⟩ := hattempt ec
    obtain ⟨d, hd, hdec, hdvalue⟩ := hattempt .clear
    have hclear : call.made plat os .clear = some (some o) := by
      simp [made_eq, hd, hdec, hdvalue rfl]
    rw [hclear, made_eq, hc, Option.map_some]
    cases hec : c.ec.isSet with
    | true => simp [h, refused_ne hfd]
    | false => simp [hvalue hec]
  · have hfails := Delivers.fails plat os h
    refine iff_of_true ?_ (.inr h)
    rw [made_eq, made_eq]
    have hends := hfails.ends ec .clear
    cases hc : call.attempt plat os ec with
    | none =>
      have hd : call.attempt plat os .clear = none := by simpa [hc] using hends.symm
      rw [hd]
    | some c =>
      rw [hc, Option.isSome_some] at hends
      obtain ⟨d, hd⟩ := Option.isSome_iff_exists.mp hends.symm
      simp [hd, hfails.isSet ec c hc, hfails.isSet .clear d hd]

end FactoryCall

/-- The two classes of servers that accept connections. -/
inductive Acceptor where
  | localServer
  | tcpServer

namespace Acceptor

/-- The members `accept`. -/
def accept (plat : Platform) (os : Os) (server : Obj) (reply : FdReply) (ec : ErrorCode) :
    Acceptor → Ret Device
  | localServer => acceptLocal plat os server reply ec
  | tcpServer => acceptTcp plat os server reply ec

/-- The class of the devices it makes. -/
def peer : Acceptor → Kind
  | localServer => .localPeer
  | tcpServer => .tcpPeer

/-- One call of `accept` after the other, with the same error code. -/
def acceptAll (plat : Platform) (server : Obj) (who : Acceptor) :
    Os → ErrorCode → List FdReply → Ret (List Device)
  | os, ec, [] => ⟨[], ec, os⟩
  | os, ec, reply :: rest =>
    let c := who.accept plat os server reply ec
    let r := acceptAll plat server who c.os c.ec rest
    ⟨c.value :: r.value, r.ec, r.os⟩

variable {plat : Platform} {os : Os} {ec : ErrorCode} {server : Obj} {who : Acceptor}
  {replies : List FdReply}

theorem accept_ok (a : Alloc) : who.accept plat os server (.ok a) ec =
    ⟨if ec.isSet then none else some (.ofHandle who.peer ⟨a.pick os.opened⟩), ec,
      (os.newFd (.accept server.h.fd) (.ok a)).os⟩ := by
  cases who <;>
    simp [accept, peer, acceptLocal, acceptTcp, Local.accept, Tcp.accept,
      Int.not_lt.mpr (a.nonneg _), handleOf_pick]

theorem accept_error (e : ℕ+) : who.accept plat os server (.error e) ec =
    ⟨none, getLastSystemError plat e, (os.newFd (.accept server.h.fd) (.error e)).os⟩ := by
  cases who <;> simp [accept, acceptLocal, acceptTcp, Local.accept, Tcp.accept]

/-- As many devices as connections, and each descriptor that was opened has its owner. -/
structure AllOwned (os : Os) (replies : List FdReply) (r : Ret (List Device)) : Prop where
  counted : r.value.countP Option.isSome = replies.countP (·.isOk)
  owned : ∀ fd ∈ r.os.opened, fd ∉ os.opened → ∃ o, some o ∈ r.value ∧ o.h.fd = fd

/-- No connection comes when the code is set: none comes at all, or the code is clear on
entry and no connection comes after a failure. -/
def InOrder (ec : ErrorCode) (replies : List FdReply) : Prop :=
  (∀ r ∈ replies, ¬ r.isOk = true) ∨
    ec.isSet = false ∧ replies.Pairwise fun a b => b.isOk = true → a.isOk = true

theorem countP_of_isSet (h : ec.isSet = true) :
    (who.acceptAll plat server os ec replies).value.countP Option.isSome = 0 := by
  induction replies generalizing os ec with
  | nil => rfl
  | cons reply rest ih =>
    cases reply with
    | ok a => simp [acceptAll, accept_ok, h, ih h]
    | error e => simp [acceptAll, accept_error, ih (isSet_getLastSystemError_pnat plat e)]

theorem counted_iff : (who.acceptAll plat server os ec replies).value.countP Option.isSome =
    replies.countP (·.isOk) ↔ InOrder ec replies := by
  induction replies generalizing os ec with
  | nil => simp [acceptAll, InOrder]
  | cons reply rest ih =>
    cases hec : ec.isSet with
    | true =>
      rw [countP_of_isSet hec, eq_comm, List.countP_eq_zero]
      simp [InOrder, hec]
    | false =>
      cases reply with
      | ok a =>
        have hrest := @ih (os.newFd (.accept server.h.fd) (.ok a)).os ec
        have hcount : (who.acceptAll plat server os ec (.ok a :: rest)).value.countP Option.isSome =
            (who.acceptAll plat server (os.newFd (.accept server.h.fd) (.ok a)).os ec
              rest).value.countP Option.isSome + 1 := by
          simp [acceptAll, accept_ok, hec]
        rw [hcount, List.countP_cons_of_pos (by simp), Nat.add_right_cancel_iff, hrest]
        simp only [InOrder, hec, true_and, List.pairwise_cons, List.forall_mem_cons, isOk_ok,
          not_true_eq_false, false_and, false_or, implies_true]
        refine ⟨fun h => h.elim (fun hno => ?_) id, .inr⟩
        exact List.pairwise_of_forall_mem_list fun x hx y hy hyok => absurd hyok (hno y hy)
      | error e =>
        have hzero : (who.acceptAll plat server os ec (.error e :: rest)).value.countP
            Option.isSome = 0 := by
          simp [acceptAll, accept_error, countP_of_isSet (isSet_getLastSystemError_pnat plat e)]
        rw [hzero, List.countP_cons_of_neg (by simp), eq_comm, List.countP_eq_zero]
        simp only [InOrder, hec, true_and, List.pairwise_cons, List.forall_mem_cons, isOk_error,
          Bool.false_eq_true, not_false_eq_true, imp_false]
        exact ⟨.inl, fun h => h.elim id And.left⟩

/-- In order, every new descriptor has its owner. -/
theorem owned_of_inOrder (h : InOrder ec replies) :
    ∀ fd ∈ (who.acceptAll plat server os ec replies).os.opened, fd ∉ os.opened →
      ∃ o, some o ∈ (who.acceptAll plat server os ec replies).value ∧ o.h.fd = fd := by
  induction replies generalizing os ec with
  | nil =>
    intro fd hfd hnew
    exact absurd hfd hnew
  | cons reply rest ih =>
    intro fd hfd hnew
    cases reply with
    | error e =>
      simp only [acceptAll, accept_error] at hfd ⊢
      have hrest : InOrder (getLastSystemError plat e) rest := by
        left
        rcases h with h | ⟨-, h⟩
        · exact (List.forall_mem_cons.mp h).2
        · intro r hr hok
          exact absurd ((List.pairwise_cons.mp h).1 r hr hok) (by simp)
      obtain ⟨o, ho, hofd⟩ := ih hrest fd hfd hnew
      exact ⟨o, List.mem_cons_of_mem _ ho, hofd⟩
    | ok a =>
      rcases h with h | ⟨hec, h⟩
      · exact absurd rfl (List.forall_mem_cons.mp h).1
      · simp only [acceptAll, accept_ok, hec, Bool.false_eq_true, if_false] at hfd ⊢
        by_cases hpick : fd = a.pick os.opened
        · exact ⟨_, List.mem_cons_self, hpick.symm⟩
        · have hnew' : fd ∉ (os.newFd (.accept server.h.fd) (.ok a)).os.opened := by
            simp [hpick, hnew]
          obtain ⟨o, ho, hofd⟩ := ih (.inr ⟨hec, (List.pairwise_cons.mp h).2⟩) fd hfd hnew'
          exact ⟨o, List.mem_cons_of_mem _ ho, hofd⟩

end Acceptor

/-- The object returned is that for a clear code exactly when the code is clear or the
call could not succeed anyway; and servers that share the code between their calls lose
no connection exactly when none comes while it is set. -/
theorem entry_error_iff (plat : Platform) (os : Os) (ec : ErrorCode) :
    (∀ call : FactoryCall, call.made plat os ec = call.made plat os .clear ↔
      ec.isSet = false ∨ ¬ call.Delivers) ∧
    ∀ (who : Acceptor) (server : Obj) (replies : List FdReply),
      Acceptor.AllOwned os replies (who.acceptAll plat server os ec replies) ↔
        Acceptor.InOrder ec replies := by
  refine ⟨FactoryCall.made_iff plat os ec, fun who server replies => ⟨fun h => ?_, fun h => ?_⟩⟩
  · exact Acceptor.counted_iff.mp h.counted
  · exact ⟨Acceptor.counted_iff.mpr h, Acceptor.owned_of_inOrder h⟩

/-- A failed `::accept` and then a successful one with the same code: the connection on
descriptor 5 is not returned and stays open. -/
theorem not_owned_after_failure :
    let r := Acceptor.acceptAll .linux ⟨.tcpServer, ⟨3⟩, .zero⟩ .tcpServer ⟨{3}, 0, []⟩ .clear
      [.error 11, .ok (.prefer 5)]
    r.value = [none, none] ∧ r.os.opened = {3, 5} ∧
      ¬ Acceptor.AllOwned ⟨{3}, 0, []⟩ [.error 11, .ok (.prefer 5)] r ∧
      FactoryCall.made .linux ⟨{3}, 0, []⟩ (makeErrorCode .tryAgain)
          (.acceptTcp ⟨.tcpServer, ⟨3⟩, .zero⟩ (.ok (.prefer 5))) ≠
        FactoryCall.made .linux ⟨{3}, 0, []⟩ .clear
          (.acceptTcp ⟨.tcpServer, ⟨3⟩, .zero⟩ (.ok (.prefer 5))) := by
  refine ⟨rfl, by decide, fun h => ?_, by decide⟩
  exact absurd h.counted (by decide)

end PfsIo
