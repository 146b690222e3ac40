import PfsIo.Model.Status
import PfsIo.Objects.Spared

/-!
# What `open_mode` reports

What a factory returns has a mode that the call decides: that of the flags for a file, and that of
the type passed to `::socket` for a socket, which for a name to resolve is the type of the
resolver's first entry, whatever the caller has asked for. The mode belongs to the descriptor: it
goes with the handle when objects are moved and swapped, and ends when the handle is closed.

## Main definitions

* `FactoryCall.mode` — the mode of what a factory makes.
* `Moded.step` — programs, with the modes that their descriptors were made with.

## Main results

* `FactoryCall.attempt_mode` — the mode of what a factory returns.
* `Moded.run_openMode` — what `open_mode` reports of every device of a program.
-/

namespace PfsIo

open Library

theorem setStatus_of_makes {status : Int → Option Nat} {call : Call} {fd : Int} {flags : Nat}
    (h : call.makes = some (fd, flags)) :
    Call.setStatus status call =
      if 0 ≤ fd then Function.update status fd (some flags) else status := by
  cases call with
  | openFile | socket | accept => simp only [Call.setStatus, h]
  | _ => cases h

/-- The flags of a descriptor are changed by calls about it. -/
theorem setStatus_of_subject (status : Int → Option Nat) (call : Call) (fd : Int)
    (h : call.subject ≠ some fd) : Call.setStatus status call fd = status fd := by
  cases call with
  | openFile _ _ _ rc | socket _ _ _ rc | accept _ rc =>
    rw [setStatus_of_makes rfl]
    simp only [Call.subject] at h
    split
    · next hrc =>
      have hne : fd ≠ rc := by
        rintro rfl
        simp [hrc] at h
      exact Function.update_of_ne hne _ _
    · rfl
  | close fd' _ _ =>
    have hne : fd ≠ fd' := by
      rintro rfl
      exact h rfl
    exact Function.update_of_ne hne _ _
  | _ => rfl

theorem status_of_spares {os os' : Os} {fd : Int} (h : Spares os os' fd) :
    os'.status fd = os.status fd := by
  have hfold := h.fold Call.setStatus (fun status => status) setStatus_of_subject os.status
  obtain ⟨calls, hlog, -⟩ := h
  rw [status_append hlog, ← hfold, callsSince_of_append hlog]

section Callers

variable {plat : Platform} {c : Ret (Int × Bytes)}

/-- What is returned without an error has the flags that the socket was made with. -/
theorem Tcp.connectTo_status (hfd : 0 ≤ c.value.1) {r : Tcp.OpenReplies}
    (hec : (Tcp.connectTo plat c r).ec.isSet = false) :
    (Tcp.connectTo plat c r).os.status = c.os.status := by
  have hend : Proceeds c _ (Tcp.connectTo plat c r) := Tcp.connectTo_proceeds hfd r
  cases hend with
  | closed _ hset _ _ => simp [hset] at hec
  | kept hok _ _ _ _ =>
    obtain ⟨u, hconnect⟩ := isOk_iff.mp (Bool.not_eq_false _ ▸ hok)
    have hkept : (Tcp.connectTo plat c r).os = (c.os.check (.connect c.value.1 c.value.2)
        r.connect).os := by simp [Tcp.connectTo, hfd, hconnect]
    rw [hkept, status_check _ _ _ fun _ _ => rfl]

theorem Tcp.listenAt_status (hfd : 0 ≤ c.value.1) {n : Int} {r : Tcp.ServerReplies}
    (hec : (Tcp.listenAt plat c n r).ec.isSet = false) :
    (Tcp.listenAt plat c n r).os.status = c.os.status := by
  obtain ⟨setsockopt, bind, listen, close⟩ := r
  have hset := status_check c.os (.setReuseAddr c.value.1) setsockopt fun _ _ => rfl
  have hbind := status_check (c.os.check (.setReuseAddr c.value.1) setsockopt).os
    (.bind c.value.1 c.value.2) bind fun _ _ => rfl
  have hlisten := status_check ((c.os.check (.setReuseAddr c.value.1) setsockopt).os.check
    (.bind c.value.1 c.value.2) bind).os (.listen c.value.1 n) listen fun _ _ => rfl
  cases setsockopt with
  | error e => simpa [Tcp.listenAt, hfd] using hset
  | ok u =>
    cases bind with
    | error e => simp [Tcp.listenAt, hfd] at hec
    | ok v =>
      cases listen with
      | error e => simp [Tcp.listenAt, hfd] at hec
      | ok w => simpa [Tcp.listenAt, hfd] using hlisten.trans (hbind.trans hset)

theorem Udp.bindTo_status (hfd : 0 ≤ c.value.1) {r : Tcp.ServerReplies}
    (hec : (Udp.bindTo plat c r).ec.isSet = false) :
    (Udp.bindTo plat c r).os.status = c.os.status := by
  obtain ⟨setsockopt, bind, listen, close⟩ := r
  have hset := status_check c.os (.setReuseAddr c.value.1) setsockopt fun _ _ => rfl
  have hbind := status_check (c.os.check (.setReuseAddr c.value.1) setsockopt).os
    (.bind c.value.1 c.value.2) bind fun _ _ => rfl
  cases setsockopt with
  | error e => simpa [Udp.bindTo, hfd] using hset
  | ok u =>
    cases bind with
    | error e => simp [Udp.bindTo, hfd] at hec
    | ok v => simpa [Udp.bindTo, hfd] using hbind.trans hset

end Callers

namespace FactoryCall

variable {plat : Platform} {os : Os} {ec : ErrorCode} {call : FactoryCall} {c : Ret Obj}

/-- The mode of the socket that `open_inet_socket` makes for the first address. -/
def inetMode (res : Resolver) (servername : Bytes) (port : UInt16) (socktype : Nat) : Nat :=
  match resultAddr res servername port socktype with
  | some addrs => socketMode (hasFlag (addrs.entry addrs.first).socktype sockNonblock)
  | none => notOpen

/-- The mode of what a call makes; connections are accepted in blocking mode. -/
def mode : FactoryCall → Nat
  | makeFile _ oflags _ _ => fileMode oflags
  | makeLocalSocket _ nonblocking _ | makeLocalServer _ nonblocking _ _ => socketMode nonblocking
  | makeTcpSocket res servername port nonblocking _ _
  | makeTcpServer res servername port nonblocking _ _ _ =>
    inetMode res servername port (inetSockType sockStream nonblocking)
  | makeUdpSocket res servername port nonblocking _
  | makeUdpServer res servername port nonblocking _ _ =>
    inetMode res servername port (inetSockType sockDgram nonblocking)
  | acceptLocal _ _ | acceptTcp _ _ => socketMode false

/-- The descriptor has been made with the flags of the mode. -/
def Reports (os : Os) (fd : Int) (mode : Nat) : Prop :=
  ∃ flags, os.status fd = some flags ∧ modeOf flags = mode

theorem reports_newFd (os : Os) (call : Int → Call) (flags : Nat) (a : Alloc)
    (h : ∀ rc, (call rc).makes = some (rc, flags)) :
    Reports (os.newFd call (.ok a)).os (a.pick os.opened) (modeOf flags) := by
  refine ⟨flags, ?_, rfl⟩
  rw [status_newFd_ok, setStatus_of_makes (h _), if_pos (a.nonneg _), Function.update_self]

theorem Reports.congr {os os' : Os} {fd : Int} {mode : Nat} (h : Reports os fd mode)
    (heq : os'.status = os.status) : Reports os' fd mode := by
  rwa [Reports, heq]

theorem reports_local (os : Os) (nonblocking : Bool) (a : Alloc) :
    Reports (os.newFd (Local.socketCall nonblocking) (.ok a)).os (a.pick os.opened)
      (socketMode nonblocking) := by
  have hreports := reports_newFd os (Local.socketCall nonblocking)
    (File.oRdwr ||| (Local.sockType nonblocking &&& sockNonblock)) a fun _ => rfl
  rw [modeOf_socket] at hreports
  have hflag : hasFlag (Local.sockType nonblocking) sockNonblock = nonblocking := by
    cases nonblocking <;> decide
  rwa [hflag] at hreports

section Inet

variable {res : Resolver} {servername : Bytes} {port : UInt16} {baseSocktype : Nat}
  {nonblocking : Bool} {inet : InetReplies} {d : Ret (Int × Bytes)}

/-- Without an error, the first address is the one that was taken. -/
theorem reports_inet
    (hd : openInetSocket plat os res servername port baseSocktype nonblocking inet ec = some d)
    (hec : d.ec.isSet = false) :
    Reports d.os d.value.1
      (inetMode res servername port (inetSockType baseSocktype nonblocking)) := by
  obtain ⟨-, addrs, a, rest, hres, -, rfl⟩ := first_of_clear hd hec
  have hreports := reports_newFd os (AddressLoop.socketCall addrs addrs.first) _ a fun _ => rfl
  rw [modeOf_socket] at hreports
  simp only [inetMode, hres]
  exact hreports

/-- A caller of `open_inet_socket` that returns without an error has got a descriptor. -/
theorem delivered_of_proceeds {last : Ret DeviceHandle} {fails : Prop}
    (hd : openInetSocket plat os res servername port baseSocktype nonblocking inet ec = some d)
    (hec : last.ec.isSet = false) (hneg : d.value.1 < 0 → last = ⟨⟨-1⟩, d.ec, d.os⟩)
    (hend : 0 ≤ d.value.1 → Proceeds d fails last) :
    d.ec.isSet = false ∧ 0 ≤ d.value.1 ∧ last.value = ⟨d.value.1⟩ := by
  rcases Int.lt_or_le d.value.1 0 with hlt | hfd
  · have hset : d.ec.isSet = false := by simpa [hneg hlt] using hec
    have hdelivered := delivered_of_clear hd hset
    exact absurd hdelivered.nonneg (by omega)
  · cases hend hfd with
    | kept _ hvalue hcode _ _ => exact ⟨hcode ▸ hec, hfd, hvalue⟩
    | closed _ hset _ _ => simp [hset] at hec

end Inet

/-- What a call returns without an error has the mode of the call. -/
theorem attempt_mode (hc : call.attempt plat os ec = some c) (hec : c.ec.isSet = false) :
    Reports c.os c.value.h.fd call.mode := by
  cases call with
  | makeFile path oflags perms reply =>
    obtain rfl := Option.some.inj hc
    cases reply with
    | error e => simp [File.open_] at hec
    | ok a =>
      have hreports := reports_newFd os (.openFile (cStr path) (File.nativeFlags oflags)
        (File.nativeMode oflags perms)) _ a fun _ => rfl
      rw [modeOf_nativeFlags] at hreports
      simpa [File.open_, a.nonneg, Obj.ofHandle, mode] using hreports
  | makeLocalSocket name nonblocking r =>
    obtain rfl := Option.some.inj hc
    obtain ⟨hclear, hfit, hsocket, hconnect⟩ : ec.isSet = false ∧ Local.Fits name ∧
        r.socket.isOk = true ∧ r.connect.isOk = true := by
      simpa using (Local.isSet_open plat os nonblocking ec).not.mp (by simpa using hec)
    obtain ⟨a, hsocket⟩ := isOk_iff.mp hsocket
    obtain ⟨u, hconnect⟩ := isOk_iff.mp hconnect
    simp only [Local.open_of_connected plat os nonblocking ec hfit hsocket hconnect,
      Local.cleanUp_of_clear _ _ _ _ hclear]
    exact (reports_local os nonblocking a).congr (status_check _ _ _ fun _ _ => rfl)
  | makeTcpSocket res servername port nonblocking inet r =>
    rw [attempt_makeTcpSocket] at hc
    obtain ⟨d, hd, rfl⟩ := Option.map_eq_some_iff.mp hc
    obtain ⟨hclear, hfd, hvalue⟩ := delivered_of_proceeds hd hec
      (fun hneg => Tcp.connectTo_of_neg hneg r) (fun hfd => Tcp.connectTo_proceeds hfd r)
    have hreports := (reports_inet hd hclear).congr (Tcp.connectTo_status hfd hec)
    simpa [lastObj, Obj.ofHandle, hvalue, DeviceHandle.swap_eq, mode] using hreports
  | makeUdpSocket res servername port nonblocking inet =>
    rw [attempt_makeUdpSocket] at hc
    obtain ⟨d, hd, rfl⟩ := Option.map_eq_some_iff.mp hc
    have hfd := (delivered_of_clear hd hec).nonneg
    have hreports := reports_inet hd hec
    simpa [Udp.storeAddress, Obj.ofHandle, handleOf_of_nonneg hfd, mode] using hreports
  | makeLocalServer name nonblocking n r =>
    obtain rfl := Option.some.inj hc
    obtain ⟨hclear, hfit, hsocket, hbind, hlisten⟩ : ec.isSet = false ∧ Local.Fits name ∧
        r.socket.isOk = true ∧ r.bind.isOk = true ∧ r.listen.isOk = true := by
      simpa using (Local.isSet_openServer plat os nonblocking n ec).not.mp (by simpa using hec)
    obtain ⟨a, hsocket⟩ := isOk_iff.mp hsocket
    simp only [Local.openServer_of_socket plat os nonblocking n ec hfit hsocket,
      Local.serverCode_of_done plat ec hbind hlisten, Local.cleanUp_of_clear _ _ _ _ hclear]
    refine (reports_local os nonblocking a).congr ?_
    simp only [Local.serverOs, hbind, if_true]
    rw [status_check _ _ _ fun _ _ => rfl, status_check _ _ _ fun _ _ => rfl,
      status_check _ _ _ fun _ _ => rfl]
  | makeTcpServer res servername port nonblocking n inet r =>
    rw [attempt_makeTcpServer] at hc
    obtain ⟨d, hd, rfl⟩ := Option.map_eq_some_iff.mp hc
    obtain ⟨hclear, hfd, hvalue⟩ := delivered_of_proceeds hd hec
      (fun hneg => Tcp.listenAt_of_neg hneg n r) (fun hfd => Tcp.listenAt_proceeds hfd n r)
    have hreports := (reports_inet hd hclear).congr (Tcp.listenAt_status hfd hec)
    simpa [lastObj, Obj.ofHandle, hvalue, DeviceHandle.swap_eq, mode] using hreports
  | makeUdpServer res servername port nonblocking inet r =>
    rw [attempt_makeUdpServer] at hc
    obtain ⟨d, hd, rfl⟩ := Option.map_eq_some_iff.mp hc
    obtain ⟨hclear, hfd, hvalue⟩ := delivered_of_proceeds hd hec
      (fun hneg => Udp.bindTo_of_neg hneg r) (fun hfd => Udp.bindTo_proceeds hfd r)
    have hreports := (reports_inet hd hclear).congr (Udp.bindTo_status hfd hec)
    simpa [lastObj, Obj.ofHandle, hvalue, DeviceHandle.swap_eq, mode] using hreports
  | acceptLocal server reply | acceptTcp server reply =>
    obtain rfl := Option.some.inj hc
    cases reply with
    | error e => simp [Local.accept, Tcp.accept] at hec
    | ok a =>
      have hreports := reports_newFd os (.accept server.h.fd) _ a fun _ => rfl
      rw [modeOf_accept] at hreports
      simpa [Local.accept, Tcp.accept, Obj.ofHandle, handleOf_pick, mode] using hreports

end FactoryCall

/-- A program, and the mode of the call that has made each of its descriptors. -/
structure Moded where
  world : World
  mode : Int → Nat

namespace Moded

open World

def start (opened : Finset Int) (errno : Nat) : Moded :=
  ⟨World.start opened errno, fun _ => notOpen⟩

/-- The mode of a call goes to the descriptor that it has brought. -/
def step (plat : Platform) : Machine Moded Program.Action
  | s, a => (Program.step plat s.world a).map fun w =>
    ⟨w, Program.relabel FactoryCall.mode s.mode w (Program.callOf s.world a)⟩

/-- The descriptors that are held have the modes of the calls that have made them. -/
structure Valid (s : Moded) : Prop where
  kept : Program.Kept s.world
  reports : ∀ fd, s.world.ledger.Held fd → FactoryCall.Reports s.world.os fd (s.mode fd)

variable {plat : Platform} {s s' : Moded}

theorem Valid.step (h : Valid s) {a : Program.Action} (hstep : step plat s a = some s') :
    Valid s' := by
  obtain ⟨w, hw, rfl⟩ := Option.map_eq_some_iff.mp hstep
  obtain ⟨hk, hreports⟩ := h
  refine ⟨(hk.step hw).kept, fun fd hfd => ?_⟩
  obtain ⟨kind, hheld⟩ := Program.held_iff_holds.mp hfd
  rcases Program.step_cases hk hw FactoryCall.mode s.mode hheld with
    ⟨hold, hspares, hsame⟩ | ⟨-, v, call, ec, c, -, -, hc, hclear, rfl, hos, hsame⟩
  · obtain ⟨flags, hflags, hmode⟩ := hreports fd hold.held
    simp only [hsame]
    exact ⟨flags, (status_of_spares hspares).trans hflags, hmode⟩
  · simp only [hsame]
    exact hos ▸ FactoryCall.attempt_mode hc hclear

theorem Valid.start (opened : Finset Int) (errno : Nat) : Valid (Moded.start opened errno) := by
  refine ⟨.start opened errno, ?_⟩
  rintro fd ⟨p, hp⟩
  cases hp

/-- In every state that a program reaches, `open_mode` reports of each device the mode of the call
that has made its descriptor, whatever was moved, swapped, closed and made since, and nothing of a
device that is closed. -/
theorem run_openMode (plat : Platform) (opened : Finset Int) (errno : Nat)
    (actions : List Program.Action) (s : Moded)
    (hrun : Machine.run (step plat) (start opened errno) actions = some s) (p : Place) (o : Obj)
    (ho : s.world.objs p = some o) :
    File.openMode o.h (s.world.os.getFlags o.h.fd) (s.world.os.probe o.h.fd) =
      if o.opened then s.mode o.h.fd else notOpen := by
  have hvalid : Valid s :=
    Machine.run_keeps (fun _ _ _ hs hst => hs.step hst) (.start opened errno) hrun
  rcases Int.lt_or_le o.h.fd 0 with hneg | hfd
  · have hopened : o.opened = false := by simpa [Obj.opened, File.opened] using hneg
    rw [openMode_of_neg hneg, hopened]
    rfl
  · have hopened : o.opened = true := by simpa [Obj.opened, File.opened] using hfd
    obtain ⟨flags, hflags, hmode⟩ := hvalid.reports o.h.fd ⟨p, hold_of_nonneg ho hfd⟩
    rw [openMode_of_status s.world.os hfd hflags, hopened, hmode]
    rfl

/-- A socket is closed, a file gets its number, and the file's device is moved. -/
def moved : List Program.Action :=
  [.make 0 (.makeLocalSocket [33] false ⟨.ok (.prefer 4), .ok (), .ok ()⟩) .clear,
    .member (.close (.pointee 0) {}),
    .make 1 (.makeFile [97] (writeOnly ||| nonBlocking) (ownerRead ||| ownerWrite)
      (.ok (.prefer 4))) .clear,
    .member (.deviceMove 2 1)]

theorem run_openMode_moved :
    ∃ s, Machine.run (step .linux) (start {7} 0) moved = some s ∧
      s.mode 4 = writeOnly ||| nonBlocking ∧
      File.openMode ⟨4⟩ (s.world.os.getFlags 4) (s.world.os.probe 4) = s.mode 4 :=
  ⟨_, rfl, rfl, run_openMode .linux {7} 0 moved _ rfl (.pointee 2) ⟨.file, ⟨4⟩, .zero⟩ rfl⟩

end Moded

end PfsIo
