import PfsIo.Local.Names
import PfsIo.Network.Net
import PfsIo.Objects.Roles
import PfsIo.Stream.Link

/-!
# Programs whose sockets are connected to each other

The threads of a program make servers and clients, accept connections, and write to and read from
the sockets, while objects are moved, swapped, closed and destroyed and the numbers of closed
descriptors are given out again. The data of each end of a connection is a link of its own.

## Main definitions

* `Exchange.step` — the steps.
* `Exchange.endAt` — the end that an object is.
* `Exchange.Valid` — the invariant.

## Main results

* `Exchange.run_connected` — each socket is an end that no other object is, and what is read at
  the other end is what was written to it.
* `Exchange.run_reached` — a client's peer is one of a server that the client's address reaches,
  and the server with the client's name if they are local.
-/

namespace PfsIo

open Library

/-- The classes of connected sockets. -/
def Kind.isStream (kind : Kind) : Bool := kind.base = .localSocket ∨ kind.base = .tcpSocket

/-- The classes that accept connections. -/
def Kind.isServer (kind : Kind) : Bool := kind = .localServer ∨ kind = .tcpServer

structure Exchange where
  world : World
  net : Net
  /-- The data that is written to each end. -/
  links : End → Link
  /-- What the sockets were made for; that of a server goes to the sockets that it accepts. -/
  role : Int → Role

namespace Exchange

open World

def start (opened : Finset Int) (errno : Nat) : Exchange :=
  ⟨World.start opened errno, Net.start, fun _ => Link.start 0 .clear 0 .clear, fun _ => .other⟩

inductive Action where
  /-- A step with objects; a connection goes to the socket `l`. -/
  | program (a : Program.Action) (l : Int)
  /-- A write to the socket at `p` begins, with the values of `errno` and the error code. -/
  | write (p : Place) (message : Bytes) (errno : Nat) (ec : ErrorCode)
  | send (p : Place) (reply : SendReply)
  | return (p : Place)
  | read (p : Place) (n : Nat) (reply : Except ℕ+ Nat) (errno : Nat) (ec : ErrorCode)

/-- The end of a connection that the object at a place is. -/
def endAt (s : Exchange) (p : Place) : Option End :=
  (s.world.objs p).bind fun o => if o.kind.isStream ∧ o.opened then s.net.ends o.h.fd else none

/-- The objects that a member has to do with. -/
def touched : World.Action → List Place
  | .moveConstruct _ _ q | .deviceWrap _ q => [q]
  | .moveAssign p q _ | .swap p q => [p, q]
  | .close p _ => [p]
  | .destroy i _ => [.var i]
  | .deviceMove _ e => [.pointee e]
  | .deviceAssign d e _ | .deviceSwap d e => [.pointee d, .pointee e]
  | .invalidate d _ _ | .deviceDestroy d _ _ => [.pointee d]
  | _ => []

/-- A write to the socket at `p` has not returned yet. -/
def busy (s : Exchange) (p : Place) : Bool :=
  (s.endAt p).any fun e => (s.links e).current.isSome

/-- A member that touches a busy object is a race, and not a step. -/
def races (s : Exchange) : Program.Action → Bool
  | .member a => (touched a).any s.busy
  | _ => false

/-- A step of the link of an end. -/
def onLink (plat : Platform) (s : Exchange) (e : End) (l : Link) (a : Link.Action) :
    Option Exchange :=
  (Link.step plat l a).map fun l => { s with links := Function.update s.links e l }

/-- The steps, for the way that the kernel finds other sockets than local ones. -/
def step (plat : Platform) (inet : Bytes → Bytes → Bool) : Machine Exchange Action
  | s, .program a l =>
    if s.races a then none
    else
      (Program.step plat s.world a).bind fun w =>
        (Machine.run (Net.next (Net.routes inet) l) s.net (callsSince s.world.os w.os)).map
          fun net => ⟨w, net, s.links,
            Program.relabel (FactoryCall.role s.role) s.role w (Program.callOf s.world a)⟩
  | s, .write p message errno ec =>
    (s.endAt p).bind fun e =>
      s.onLink plat e { s.links e with writerErrno := errno, writerEc := ec } (.write message)
  | s, .send p reply => (s.endAt p).bind fun e => s.onLink plat e (s.links e) (.send reply)
  | s, .return p => (s.endAt p).bind fun e => s.onLink plat e (s.links e) .return
  | s, .read p n reply errno ec =>
    (s.endAt p).bind fun e =>
      s.onLink plat e.other { s.links e.other with readerErrno := errno, readerEc := ec }
        (.read n reply)

/-- A connected socket and its role: a client has dialled its address, and an accepted peer was
dialled with an address that reaches its server. -/
def Meets (net : Net) (reaches : Bytes → Bytes → Bool) (role : Role) (e : End) : Prop :=
  match role with
  | .client addr => e.accepted = false ∧ net.dialled[e.conn]? = some addr
  | .server addr' =>
    e.accepted = true ∧ ∃ addr, net.dialled[e.conn]? = some addr ∧ reaches addr addr' = true
  | .other => False

/-- A server and its role: while its address is not unlinked, connections come to it that reach it;
none comes to a server that is not bound. -/
def Serves (net : Net) (reaches : Bytes → Bytes → Bool) (fd : Int) (role : Role) : Prop :=
  match role with
  | .server addr =>
    (∀ addr', net.bound fd = some addr' → addr' = addr) ∧ ∀ conns, net.waiting fd = some conns →
      ∀ c ∈ conns, Meets net reaches (.server addr) ⟨c, true⟩
  | .client _ => False
  | .other => net.waiting fd = none

structure Valid (inet : Bytes → Bytes → Bool) (s : Exchange) : Prop where
  kept : Program.Kept s.world
  net : s.net.Sound
  connected : ∀ kind fd, Program.Holds s.world kind fd → kind.isStream = true →
    ∃ e, s.net.ends fd = some e ∧ Meets s.net (Net.routes inet) (s.role fd) e
  serving : ∀ kind fd, Program.Holds s.world kind fd → kind.isServer = true →
    Serves s.net (Net.routes inet) fd (s.role fd)
  ordered : ∀ e, (s.links e).Ordered

variable {plat : Platform} {inet reaches : Bytes → Bytes → Bool} {net net' : Net} {fd l : Int}
  {role : Role} {e : End} {os : Os} {ec : ErrorCode} {call : FactoryCall} {c : Ret Obj}

theorem Meets.later (h : Meets net reaches role e) (hdialled : net.dialled <+: net'.dialled) :
    Meets net' reaches role e := by
  cases role with
  | client addr => exact ⟨h.1, Net.getElem?_of_grown hdialled h.2⟩
  | server addr' =>
    obtain ⟨haccepted, addr, haddr, hreaches⟩ := h
    exact ⟨haccepted, addr, Net.getElem?_of_grown hdialled haddr, hreaches⟩
  | other => exact h

/-- A server that is left alone still serves. -/
theorem Serves.keeps (h : Serves net reaches fd role) (hkeeps : Net.Keeps reaches fd net net') :
    Serves net' reaches fd role := by
  cases role with
  | server addr =>
    refine ⟨fun addr' haddr => ?_, fun conns' hconns' c hc => ?_⟩
    · rcases hkeeps.bound with heq | hnone
      · exact h.1 addr' (heq ▸ haddr)
      · simp [hnone] at haddr
    · obtain ⟨conns, hconns, hnew⟩ := hkeeps.waiting conns' hconns'
      rcases hnew c hc with hold | ⟨addr', bound, haddr, hbound, hreaches⟩
      · exact (h.2 conns hconns c hold).later hkeeps.dialled
      · obtain rfl := h.1 bound hbound
        exact ⟨rfl, addr', haddr, hreaches⟩
  | client addr => exact h
  | other =>
    cases hwaiting : net'.waiting fd with
    | none => exact hwaiting
    | some conns' =>
      obtain ⟨conns, hconns, -⟩ := hkeeps.waiting conns' hwaiting
      cases h.symm.trans hconns

/-- The server that a call of `accept` is for serves. -/
def ServerServes (net : Net) (reaches : Bytes → Bytes → Bool) (label : Int → Role) :
    FactoryCall → Prop
  | .acceptLocal server _ | .acceptTcp server _ =>
    0 ≤ server.h.fd → Serves net reaches server.h.fd (label server.h.fd)
  | _ => True

/-- What a server accepts is the peer of a connection that reaches it. -/
theorem meets_accept {server : Int} (hnet : net.Sound)
    (hserves : 0 ≤ server → Serves net reaches server role) (hfd : 0 ≤ fd)
    (hrun : Machine.run (Net.next reaches l) net [.accept server fd] = some net') :
    ∃ e, net'.ends fd = some e ∧ Meets net' reaches role e := by
  obtain ⟨c, conns, hwaiting, hend, hdialled⟩ := Net.ends_run_accept hfd hrun
  have hserves := hserves (hnet.waiting_nonneg _ _ hwaiting)
  refine ⟨_, hend, ?_⟩
  cases role with
  | server addr =>
    exact (hserves.2 _ hwaiting c List.mem_cons_self).later (hdialled ▸ List.prefix_refl _)
  | client addr => exact hserves.elim
  | other => cases hserves.symm.trans hwaiting

/-- A socket that is returned is the end that its role says. -/
theorem meets_of_attempt {label : Int → Role} (hnet : net.Sound)
    (hserver : ServerServes net reaches label call) (hc : call.attempt plat os ec = some c)
    (hec : c.ec.isSet = false)
    (hrun : Machine.run (Net.next reaches l) net (callsSince os c.os) = some net')
    (hkind : call.kind.isStream = true) :
    ∃ e, net'.ends c.value.h.fd = some e ∧ Meets net' reaches (call.role label) e := by
  cases call with
  | makeFile | makeUdpSocket | makeLocalServer | makeTcpServer | makeUdpServer => cases hkind
  | makeLocalSocket path nonblocking r =>
    obtain ⟨calls, hcalls⟩ := FactoryCall.calls_makeLocalSocket hc hec
    obtain ⟨i, hend, hdialled⟩ := Net.ends_run_connect (hcalls ▸ hrun)
    exact ⟨_, hend, rfl, hdialled⟩
  | makeTcpSocket res servername port nonblocking inet r =>
    obtain ⟨calls, addr, hselected, hcalls⟩ := FactoryCall.calls_makeTcpSocket hc hec
    obtain ⟨i, hend, hdialled⟩ := Net.ends_run_connect (hcalls ▸ hrun)
    refine ⟨_, hend, ?_⟩
    simp only [FactoryCall.role, hselected, Option.elim_some]
    exact ⟨rfl, hdialled⟩
  | acceptLocal server reply =>
    obtain ⟨hfd, hcalls⟩ := FactoryCall.calls_accept (.inl rfl) hc hec
    exact meets_accept hnet hserver hfd (hcalls ▸ hrun)
  | acceptTcp server reply =>
    obtain ⟨hfd, hcalls⟩ := FactoryCall.calls_accept (.inr rfl) hc hec
    exact meets_accept hnet hserver hfd (hcalls ▸ hrun)

/-- A new socket that is bound and listens serves its address. -/
theorem Serves.of_listen {addr : Bytes}
    (h : net.bound fd = some addr ∧ net.waiting fd = some []) :
    Serves net reaches fd (.server addr) := by
  refine ⟨fun addr' haddr => ?_, fun conns hconns => ?_⟩
  · exact Option.some.inj (haddr.symm.trans h.1)
  · obtain rfl := Option.some.inj (h.2.symm.trans hconns)
    simp

/-- A server that is returned serves the address of the call. -/
theorem serves_of_attempt {label : Int → Role} (hc : call.attempt plat os ec = some c)
    (hec : c.ec.isSet = false)
    (hrun : Machine.run (Net.next reaches l) net (callsSince os c.os) = some net')
    (hkind : call.kind.base.isServer = true) :
    Serves net' reaches c.value.h.fd (call.role label) := by
  cases call with
  | makeLocalServer path nonblocking n r =>
    obtain ⟨hfd, rc, hcalls⟩ := FactoryCall.calls_makeLocalServer hc hec
    rw [hcalls] at hrun
    refine .of_listen (Net.bound_run_listen hfd (fun net => ?_) hrun)
    simp only [Net.next]
    split
    · exact ⟨_, rfl⟩
    · exact ⟨net.bound, rfl⟩
  | makeTcpServer res servername port nonblocking n inet r =>
    obtain ⟨hfd, family, socktype, protocol, addr, hselected, hcalls⟩ :=
      FactoryCall.calls_makeTcpServer hc hec
    rw [hcalls] at hrun
    simp only [FactoryCall.role, hselected, Option.elim_some]
    cases hset : r.setsockopt.isOk with
    | true =>
      simp only [hset, if_true] at hrun
      exact .of_listen (Net.bound_run_listen hfd (fun net => ⟨net.bound, rfl⟩) hrun)
    | false =>
      simp only [hset, Bool.false_eq_true, if_false] at hrun
      exact Net.waiting_run_socket hfd hrun
  | _ => cases hkind

theorem isStream_base (kind : Kind) : kind.base.isStream = kind.isStream := by
  cases kind <;> rfl

theorem isServer_base (kind : Kind) : kind.base.isServer = kind.isServer := by
  cases kind <;> rfl

section Steps

variable {s s' : Exchange} {w w' : World} {a : Program.Action} {v : Nat}

/-- Connections are accepted by servers of the program. -/
theorem server_of_accept {server : Obj} {reply : FdReply}
    (h : Program.step plat w a = some w') (hcall : Program.callOf w a = some (v, call))
    (haccept : call = .acceptLocal server reply ∨ call = .acceptTcp server reply) :
    ∃ q, w.objs q = some server ∧ server.kind.isServer = true := by
  cases a with
  | member a => cases hcall
  | make v call ec =>
    obtain ⟨rfl, rfl⟩ := Prod.mk.inj (Option.some.inj hcall)
    rcases haccept with rfl | rfl <;> cases h
  | makeOrThrow v call =>
    obtain ⟨rfl, rfl⟩ := Prod.mk.inj (Option.some.inj hcall)
    rcases haccept with rfl | rfl <;> cases h
  | accept v q reply' ec =>
    obtain ⟨o, ho, hcall⟩ := Option.bind_eq_some_iff.mp hcall
    obtain ⟨call', hcall', heq⟩ := Option.map_eq_some_iff.mp hcall
    obtain ⟨-, rfl⟩ := Prod.mk.inj heq
    unfold Program.acceptCall at hcall'
    split at hcall'
    · next hkind =>
      obtain rfl := Option.some.inj hcall'
      obtain ⟨rfl, -⟩ : o = server ∧ reply' = reply := by simpa using haccept
      exact ⟨q, ho, by simp [Kind.isServer, hkind]⟩
    · next hkind =>
      obtain rfl := Option.some.inj hcall'
      obtain ⟨rfl, -⟩ : o = server ∧ reply' = reply := by simpa using haccept
      exact ⟨q, ho, by simp [Kind.isServer, hkind]⟩
    · cases hcall'

theorem serverServes (hs : Valid inet s) (h : Program.step plat s.world a = some w)
    (hcall : Program.callOf s.world a = some (v, call)) :
    ServerServes s.net (Net.routes inet) s.role call := by
  have hserves : ∀ {server reply}, call = .acceptLocal server reply ∨
      call = .acceptTcp server reply → 0 ≤ server.h.fd →
      Serves s.net (Net.routes inet) server.h.fd (s.role server.h.fd) := by
    intro server reply haccept hfd
    obtain ⟨q, hq, hkind⟩ := server_of_accept h hcall haccept
    refine hs.serving _ _ ⟨q, server, hq, hfd, rfl, rfl⟩ ?_
    rwa [isServer_base]
  cases call with
  | acceptLocal server reply => exact hserves (.inl rfl)
  | acceptTcp server reply => exact hserves (.inr rfl)
  | _ => trivial

theorem Valid.program (hs : Valid inet s) (h : Program.step plat s.world a = some w)
    (hrun : Machine.run (Net.next (Net.routes inet) l) s.net (callsSince s.world.os w.os) =
      some net) :
    Valid inet ⟨w, net, s.links,
      Program.relabel (FactoryCall.role s.role) s.role w (Program.callOf s.world a)⟩ := by
  refine ⟨(hs.kept.step h).kept, hs.net.run hrun, ?_, ?_, hs.ordered⟩
  · intro kind fd hfd hstream
    rcases Program.step_cases hs.kept h (FactoryCall.role s.role) s.role hfd with
      ⟨hold, hspares, hrole⟩ | ⟨-, v, call, ec, c, hcall, rfl, hc, hec, rfl, hos, hrole⟩
    · obtain ⟨e, hend, hmeets⟩ := hs.connected kind fd hold hstream
      have hkeeps := Net.keeps_run hspares hrun
      refine ⟨e, hkeeps.ends.trans hend, ?_⟩
      simp only [hrole]
      exact hmeets.later hkeeps.dialled
    · simp only [hrole]
      refine meets_of_attempt hs.net (serverServes hs h hcall) hc hec (hos ▸ hrun) ?_
      rwa [← isStream_base]
  · intro kind fd hfd hserver
    rcases Program.step_cases hs.kept h (FactoryCall.role s.role) s.role hfd with
      ⟨hold, hspares, hrole⟩ | ⟨-, v, call, ec, c, -, rfl, hc, hec, rfl, hos, hrole⟩
    · simp only [hrole]
      exact (hs.serving kind fd hold hserver).keeps (Net.keeps_run hspares hrun)
    · simp only [hrole]
      exact serves_of_attempt hc hec (hos ▸ hrun) hserver

theorem Valid.onLink (hs : Valid inet s) {e : End} {link : Link} {a : Link.Action}
    (heq : plat.eagain = plat.ewouldblock) (hlink : link.Ordered)
    (h : s.onLink plat e link a = some s') : Valid inet s' := by
  obtain ⟨link', hstep, rfl⟩ := Option.map_eq_some_iff.mp h
  refine ⟨hs.kept, hs.net, hs.connected, hs.serving, fun e' => ?_⟩
  simp only [Function.update_apply]
  split
  · exact hlink.step heq hstep
  · exact hs.ordered e'

theorem Valid.step (hs : Valid inet s) (heq : plat.eagain = plat.ewouldblock) {a : Action}
    (h : step plat inet s a = some s') : Valid inet s' := by
  cases a with
  | program a l =>
    obtain ⟨-, h⟩ := Option.ite_none_left_eq_some.mp h
    obtain ⟨w, hw, h⟩ := Option.bind_eq_some_iff.mp h
    obtain ⟨net, hnet, rfl⟩ := Option.map_eq_some_iff.mp h
    exact hs.program hw hnet
  | write p message errno ec =>
    obtain ⟨e, -, h⟩ := Option.bind_eq_some_iff.mp h
    refine hs.onLink heq ?_ h
    exact ⟨(hs.ordered e).stream, (hs.ordered e).counted⟩
  | send p reply | «return» p =>
    obtain ⟨e, -, h⟩ := Option.bind_eq_some_iff.mp h
    exact hs.onLink heq (hs.ordered e) h
  | read p n reply errno ec =>
    obtain ⟨e, -, h⟩ := Option.bind_eq_some_iff.mp h
    refine hs.onLink heq ?_ h
    exact ⟨(hs.ordered e.other).stream, (hs.ordered e.other).counted⟩

theorem Valid.start (inet : Bytes → Bytes → Bool) (opened : Finset Int) (errno : Nat) :
    Valid inet (Exchange.start opened errno) := by
  refine ⟨.start opened errno, .start, ?_, ?_, fun _ => .start 0 .clear 0 .clear⟩
  · rintro kind fd ⟨p, o, ho, -⟩
    cases ho
  · rintro kind fd ⟨p, o, ho, -⟩
    cases ho

theorem Valid.run (heq : plat.eagain = plat.ewouldblock) {opened : Finset Int} {errno : Nat}
    {actions : List Action}
    (h : Machine.run (Exchange.step plat inet) (Exchange.start opened errno) actions = some s) :
    Valid inet s :=
  Machine.run_keeps (fun _ _ _ hs hst => hs.step heq hst) (.start inet opened errno) h

end Steps

theorem endAt_eq_some {s : Exchange} {p : Place} (h : s.endAt p = some e) :
    ∃ o, s.world.objs p = some o ∧ o.kind.isStream = true ∧ 0 ≤ o.h.fd ∧
      s.net.ends o.h.fd = some e := by
  obtain ⟨o, ho, h⟩ := Option.bind_eq_some_iff.mp h
  obtain ⟨⟨hkind, hopened⟩, hend⟩ := Option.ite_none_right_eq_some.mp h
  exact ⟨o, ho, hkind, by simpa [Obj.opened, File.opened] using hopened, hend⟩

/-- A local server and a client, whose first peer is closed and whose number goes to the peer of a
second client; the first client's socket is moved, and the second client writes. Then a TCP server
accepts a client. -/
def session : List Action :=
  [.program (.make 0 (.makeLocalServer [33] false 5 ⟨.ok (.prefer 4), .ok (), .ok (), .ok (),
      .ok ()⟩) .clear) 0,
    .program (.make 1 (.makeLocalSocket [33] false ⟨.ok (.prefer 5), .ok (), .ok ()⟩) .clear) 4,
    .program (.accept 2 (.var 0) (.ok (.prefer 6)) .clear) 0,
    .write (.pointee 1) [1] 0 .clear, .send (.pointee 1) (.ok ⟨1, Nat.one_pos⟩),
    .return (.pointee 1),
    .program (.member (.close (.pointee 2) {})) 0, .program (.member (.deviceMove 3 1)) 0,
    .program (.make 4 (.makeLocalSocket [33] false ⟨.ok (.prefer 7), .ok (), .ok ()⟩) .clear) 4,
    .program (.accept 5 (.var 0) (.ok (.prefer 6)) .clear) 0,
    .write (.pointee 4) [2, 3] 0 .clear, .send (.pointee 4) (.ok ⟨1, Nat.one_pos⟩),
    .read (.pointee 5) 8 (.ok 8) 0 .clear,
    .program (.make 6 (.makeTcpServer threeResolver dotted 80 false 5
      ⟨[.ok (.prefer 8)], .ok ()⟩ {}) .clear) 0,
    .program (.make 7 (.makeTcpSocket threeResolver dotted 80 false
      ⟨[.ok (.prefer 9)], .ok ()⟩ {}) .clear) 8,
    .program (.accept 8 (.var 6) (.ok (.prefer 10)) .clear) 0]

theorem name_eq_of_routes {name name' : Bytes} (hfits : Local.Fits name)
    (hfits' : Local.Fits name') (hnul : 0 ∉ name) (hnul' : 0 ∉ name')
    (h : Net.routes inet (Local.sockaddrUn name) (Local.sockaddrUn name') = true) :
    name = name' := by
  have hpath : cStr (Local.sunPath name') = cStr (Local.sunPath name) := by
    simpa [Net.routes, Net.isPath, Local.sockaddrUn] using h
  rw [Local.cStr_sunPath hfits hnul, Local.cStr_sunPath hfits' hnul'] at hpath
  exact hpath.symm

/-- An object that is an end, and its role. -/
theorem Valid.meets {s : Exchange} (hs : Valid inet s) {p : Place} {o : Obj}
    (ho : s.world.objs p = some o) (hend : s.endAt p = some e) :
    Meets s.net (Net.routes inet) (s.role o.h.fd) e := by
  obtain ⟨o', ho', hkind, hfd, hend⟩ := endAt_eq_some hend
  obtain rfl := Option.some.inj (ho'.symm.trans ho)
  obtain ⟨e', hend', h⟩ := hs.connected _ _ ⟨p, o', ho, hfd, rfl, rfl⟩ (by rwa [isStream_base])
  obtain rfl := Option.some.inj (hend'.symm.trans hend)
  exact h

/-- In every state that the threads of a program reach, two sockets that are connected to each
other are a client and a peer that was accepted by a server, and the server was made for an address
that is reached from that of the client; local ones were made with the same name. -/
theorem run_reached (plat : Platform) (heq : plat.eagain = plat.ewouldblock)
    (inet : Bytes → Bytes → Bool) (opened : Finset Int) (errno : Nat) (actions : List Action)
    (s : Exchange) (hrun : Machine.run (step plat inet) (start opened errno) actions = some s)
    (p q : Place) (a b : Obj) (ha : s.world.objs p = some a) (hb : s.world.objs q = some b)
    (c : Nat) (hp : s.endAt p = some ⟨c, false⟩) (hq : s.endAt q = some ⟨c, true⟩) :
    ∃ addr addr', s.role a.h.fd = .client addr ∧ s.role b.h.fd = .server addr' ∧
      Net.routes inet addr addr' = true ∧
      ∀ name name', addr = Local.sockaddrUn name → addr' = Local.sockaddrUn name' →
        Local.Fits name → Local.Fits name' → 0 ∉ name → 0 ∉ name' → name = name' := by
  have hs := Valid.run heq hrun
  have hclient := hs.meets ha hp
  have hpeer := hs.meets hb hq
  cases hrole : s.role a.h.fd with
  | other => simp [hrole, Meets] at hclient
  | server addr => simp [hrole, Meets] at hclient
  | client addr =>
    cases hrole' : s.role b.h.fd with
    | other => simp [hrole', Meets] at hpeer
    | client addr' => simp [hrole', Meets] at hpeer
    | server addr' =>
      simp only [hrole, Meets, true_and] at hclient
      simp only [hrole', Meets, true_and] at hpeer
      obtain ⟨dialled, hdialled, hroutes⟩ := hpeer
      obtain rfl := Option.some.inj (hclient.symm.trans hdialled)
      refine ⟨addr, addr', rfl, rfl, hroutes, ?_⟩
      rintro name name' rfl rfl hfits hfits' hnul hnul'
      exact name_eq_of_routes hfits hfits' hnul hnul' hroutes

theorem run_reached_session :
    ∃ s, Machine.run (step .linux (· == ·)) (start ∅ 0) session = some s ∧
      ∃ addr addr', s.role 7 = .client addr ∧ s.role 6 = .server addr' ∧
        Net.routes (· == ·) addr addr' = true ∧
        ∀ name name', addr = Local.sockaddrUn name → addr' = Local.sockaddrUn name' →
          Local.Fits name → Local.Fits name' → 0 ∉ name → 0 ∉ name' → name = name' :=
  ⟨_, rfl, run_reached .linux rfl (· == ·) ∅ 0 session _ rfl (.pointee 4) (.pointee 5)
    ⟨.localSocket, ⟨7⟩, .zero⟩ ⟨.localPeer, ⟨6⟩, .zero⟩ rfl rfl 1 rfl rfl⟩

end Exchange

end PfsIo
