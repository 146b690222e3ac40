import PfsIo.Inet.Descriptors
import PfsIo.Objects.EntryError

/-!
# What the factories leave open

Each call of a factory, with any error code on entry and any answers on which it returns,
opens one more descriptor and returns its object, or fails with the descriptors as they
were, or fails and leaves a descriptor open that no object holds.

## Main definitions

* `FactoryCall.exec` — the calls, with the kernel and the error code after them.
* `FactoryCall.orThrow` — the overloads of the functions `make_…` that throw.
* `FactoryCall.Strands` — the calls that leave a descriptor behind.
* `FactoryCall.Balance` — the three ends.
* `FactoryCall.Recloses` — the calls that close a descriptor twice.

## Main results

* `FactoryCall.attempt_balance` — how each call ends.
* `FactoryCall.attempt_log` — which calls close a descriptor that is not open.
* `FactoryCall.orThrow_ends` — what these overloads return, and when they throw.
-/

namespace PfsIo

open Library

/-- Each `::close` among the calls was on a descriptor that was open. -/
def CloseOpen (calls : List Call) : Prop :=
  ∀ fd wasOpen rc, .close fd wasOpen rc ∈ calls → wasOpen = true

theorem closeOpen_append {calls more : List Call} :
    CloseOpen (calls ++ more) ↔ CloseOpen calls ∧ CloseOpen more := by
  simp only [CloseOpen, List.mem_append]
  grind

theorem closeOpen_of_none {calls : List Call}
    (h : ∀ fd wasOpen rc, .close fd wasOpen rc ∉ calls) : CloseOpen calls :=
  fun fd wasOpen rc hmem => absurd hmem (h fd wasOpen rc)

/-- The calls made between two states close only what is open exactly if `ok` holds. -/
def Closings (os os' : Os) (ok : Prop) : Prop :=
  ∃ calls, os'.log = os.log ++ calls ∧ (CloseOpen calls ↔ ok)

theorem Closings.none {os os' : Os} (calls : List Call) (h : os'.log = os.log ++ calls)
    (hnone : ∀ fd wasOpen rc, .close fd wasOpen rc ∉ calls) : Closings os os' True :=
  ⟨calls, h, iff_true_intro (closeOpen_of_none hnone)⟩

theorem Closings.congr {os os' : Os} {ok ok' : Prop} (h : Closings os os' ok) (heq : ok ↔ ok') :
    Closings os os' ok' := by
  rwa [← heq]

theorem Closings.trans {os os' os'' : Os} {ok ok' : Prop} (h : Closings os os' ok)
    (h' : Closings os' os'' ok') : Closings os os'' (ok ∧ ok') := by
  obtain ⟨calls, hlog, hok⟩ := h
  obtain ⟨more, hlog', hok'⟩ := h'
  refine ⟨calls ++ more, by rw [hlog', hlog, List.append_assoc], ?_⟩
  rw [closeOpen_append, hok, hok']

/-- The last call is the only one of `::close`. -/
theorem Closings.last {os os' : Os} {fd : Int} (calls : List Call) (rc : Int)
    (h : os'.log = os.log ++ (calls ++ [.close fd (decide (fd ∈ os.opened)) rc]))
    (hnone : ∀ fd wasOpen rc, .close fd wasOpen rc ∉ calls) :
    Closings os os' (fd ∈ os.opened) := by
  refine ⟨_, h, ?_⟩
  rw [closeOpen_append, and_iff_right (closeOpen_of_none hnone)]
  constructor
  · intro hclose
    exact of_decide_eq_true (hclose fd _ rc (List.mem_singleton_self _))
  · intro hopen fd' wasOpen rc' hmem
    obtain ⟨-, rfl, -⟩ := Call.close.inj (List.mem_singleton.mp hmem)
    exact decide_eq_true hopen

theorem Closings.close (os : Os) (fd : Int) (r : Reply) :
    Closings os (os.close fd r).os (fd ∈ os.opened) :=
  .last [] _ (Os.log_close os fd r) (by simp)

section Inet

variable {plat : Platform} {os : Os} {res : Resolver} {servername : Bytes} {port : UInt16}
  {baseSocktype : Nat} {nonblocking : Bool} {r : InetReplies} {ec : ErrorCode}
  {c : Ret (Int × Bytes)}

/-- The descriptor that the function returns is a new one, also if it is closed already. -/
theorem openInetSocket_fresh
    (hc : openInetSocket plat os res servername port baseSocktype nonblocking r ec = some c)
    (hfd : 0 ≤ c.value.1) : c.value.1 ∉ os.opened := by
  cases openInetSocket_exit hc with
  | unresolved _ => simp at hfd
  | first addrs a rest _ _ =>
    rw [inetResult_value]
    exact a.fresh _
  | single addrs e rest _ _ _ => simp [AddressLoop.failed] at hfd
  | retried addrs e rest rest' t _ _ hlen hrun =>
    rw [inetResult_value]
    exact (AddressLoop.run_retry (retrying_first plat os hlen e) hrun).fresh

/-- After the address loop, a descriptor is closed at most once. -/
theorem closings_inetResult {addrs : AddrList} {s : AddressState addrs}
    (hs : Closings os s.os True) (hopen : 0 ≤ s.fd → s.fd ∈ s.os.opened) (close : Reply) :
    Closings os (inetResult s close).os True := by
  rcases Int.lt_or_le s.fd 0 with hneg | hfd
  · rwa [inetResult_of_neg close hneg]
  · cases hec : s.ec.isSet with
    | false => rwa [inetResult_of_clear close hfd hec]
    | true =>
      rw [inetResult_of_isSet close hfd hec]
      simpa [hopen hfd] using hs.trans (.close s.os s.fd close)

theorem closings_socket {addrs : AddrList} {s : AddressState addrs} (hs : Closings os s.os True)
    (p : addrs.Ptr) (reply : FdReply) :
    Closings os (s.os.newFd (AddressLoop.socketCall addrs p) reply).os True := by
  have hsocket : Closings s.os (s.os.newFd (AddressLoop.socketCall addrs p) reply).os True :=
    .none _ (Os.log_newFd _ _ _) (by simp [AddressLoop.socketCall])
  simpa using hs.trans hsocket

theorem openInetSocket_closings
    (hc : openInetSocket plat os res servername port baseSocktype nonblocking r ec = some c) :
    Closings os c.os True := by
  have hself : Closings os os True := .none [] (List.append_nil _).symm (by simp)
  cases openInetSocket_exit hc with
  | unresolved _ => exact hself
  | first addrs a rest _ _ =>
    refine closings_inetResult ?_ (fun _ => Finset.mem_insert_self _ _) r.close
    exact closings_socket (s := .start addrs ec os) hself addrs.first (.ok a)
  | single addrs e rest _ _ _ =>
    refine closings_inetResult ?_ (fun hfd => by simp [AddressLoop.failed] at hfd) r.close
    exact closings_socket (s := .start addrs .clear os) hself addrs.first (.error e)
  | retried addrs e rest rest' t _ _ hlen hrun =>
    have hreopened := AddressLoop.run_retry (retrying_first plat os hlen e) hrun
    refine closings_inetResult ?_ (fun _ => by simp [hreopened.opened]) r.close
    refine AddressLoop.run_rule (fun s => Closings os s.os True) (fun s => Closings os s.os True)
      ?_ ?_ ?_ ?_ hrun
    · intro s p e hs _
      exact closings_socket hs p (.error e)
    · intro s p a hs _
      exact closings_socket hs p (.ok a)
    · intro s hs _
      exact hs
    · exact closings_socket (s := .start addrs .clear os) hself addrs.first (.error e)

end Inet

/-- What a caller of `open_inet_socket` does with the descriptor: it is kept with the error code as
it was, or closed with an error. -/
inductive Proceeds (c : Ret (Int × Bytes)) (fails : Prop) (d : Ret DeviceHandle) : Prop where
  | kept : ¬ fails → d.value = ⟨c.value.1⟩ → d.ec = c.ec → d.os.opened = c.os.opened →
      Closings c.os d.os True → Proceeds c fails d
  | closed : fails → d.ec.isSet = true → d.os.opened = c.os.opened.erase c.value.1 →
      Closings c.os d.os (c.value.1 ∈ c.os.opened) → Proceeds c fails d

section Proceeds

variable {plat : Platform} {c : Ret (Int × Bytes)}

theorem Tcp.connectTo_of_neg (h : c.value.1 < 0) (r : Tcp.OpenReplies) :
    Tcp.connectTo plat c r = ⟨⟨-1⟩, c.ec, c.os⟩ := by
  simp [Tcp.connectTo, Int.not_le.mpr h, handleOf, h]

/-- `udp::open` does nothing with the descriptor. -/
theorem Udp.keep_of_neg (h : c.value.1 < 0) :
    (⟨handleOf c.value.1, c.ec, c.os⟩ : Ret DeviceHandle) = ⟨⟨-1⟩, c.ec, c.os⟩ := by
  simp [handleOf, h]

theorem Udp.keep_proceeds (hfd : 0 ≤ c.value.1) :
    Proceeds c False ⟨handleOf c.value.1, c.ec, c.os⟩ :=
  .kept not_false (handleOf_of_nonneg hfd) rfl rfl (.none [] (List.append_nil _).symm (by simp))

theorem Tcp.connectTo_proceeds (hfd : 0 ≤ c.value.1) (r : Tcp.OpenReplies) :
    Proceeds c (r.connect.isOk = false) (Tcp.connectTo plat c r) := by
  obtain ⟨connect, close⟩ := r
  cases connect with
  | ok u =>
    refine .kept (by simp) ?_ ?_ ?_ (.none [.connect c.value.1 c.value.2 0] ?_ (by simp))
    all_goals simp [Tcp.connectTo, hfd, handleOf_of_nonneg hfd]
  | error e =>
    refine .closed rfl ?_ ?_ (.last [.connect c.value.1 c.value.2 (-1)] (Local.rcOf close) ?_
      (by simp))
    all_goals simp [Tcp.connectTo, hfd, Local.rc_close]

theorem Tcp.listenAt_proceeds (hfd : 0 ≤ c.value.1) (n : Int) (r : Tcp.ServerReplies) :
    Proceeds c (r.setsockopt.isOk = true ∧ (r.bind.isOk = false ∨ r.listen.isOk = false))
      (Tcp.listenAt plat c n r) := by
  obtain ⟨setsockopt, bind, listen, close⟩ := r
  cases setsockopt with
  | error e =>
    refine .kept (by simp) ?_ ?_ ?_ (.none [.setReuseAddr c.value.1 (-1)] ?_ (by simp))
    all_goals simp [Tcp.listenAt, hfd, handleOf_of_nonneg hfd]
  | ok u =>
    cases bind with
    | error e =>
      refine .closed (by simp) ?_ ?_ (.last [.setReuseAddr c.value.1 0,
        .bind c.value.1 c.value.2 (-1)] (Local.rcOf close) ?_ (by simp))
      all_goals simp [Tcp.listenAt, hfd, Local.rc_close]
    | ok v =>
      cases listen with
      | error e =>
        refine .closed (by simp) ?_ ?_ (.last [.setReuseAddr c.value.1 0,
          .bind c.value.1 c.value.2 0, .listen c.value.1 n (-1)] (Local.rcOf close) ?_ (by simp))
        all_goals simp [Tcp.listenAt, hfd, Local.rc_close]
      | ok w =>
        refine .kept (by simp) ?_ ?_ ?_
          (.none (Tcp.serverSteps n c.value.2 c.value.1) ?_ (by simp [Tcp.serverSteps]))
        all_goals simp [Tcp.listenAt, hfd, handleOf_of_nonneg hfd, Tcp.serverSteps]

theorem Udp.bindTo_proceeds (hfd : 0 ≤ c.value.1) (r : Tcp.ServerReplies) :
    Proceeds c (r.setsockopt.isOk = true ∧ r.bind.isOk = false) (Udp.bindTo plat c r) := by
  obtain ⟨setsockopt, bind, listen, close⟩ := r
  cases setsockopt with
  | error e =>
    refine .kept (by simp) ?_ ?_ ?_ (.none [.setReuseAddr c.value.1 (-1)] ?_ (by simp))
    all_goals simp [Udp.bindTo, hfd, handleOf_of_nonneg hfd]
  | ok u =>
    cases bind with
    | error e =>
      refine .closed (by simp) ?_ ?_ (.last [.setReuseAddr c.value.1 0,
        .bind c.value.1 c.value.2 (-1)] (Local.rcOf close) ?_ (by simp))
      all_goals simp [Udp.bindTo, hfd, Local.rc_close]
    | ok v =>
      refine .kept (by simp) ?_ ?_ ?_
        (.none (Udp.serverSteps c.value.2 c.value.1) ?_ (by simp [Udp.serverSteps]))
      all_goals simp [Udp.bindTo, hfd, handleOf_of_nonneg hfd, Udp.serverSteps]

end Proceeds

namespace FactoryCall

/-- The call with the error code `ec`; a server is never null. -/
def exec (plat : Platform) (os : Os) (ec : ErrorCode) : FactoryCall → Option (Ret Device)
  | makeFile path oflags perms reply => some (PfsIo.makeFile plat os path oflags perms reply ec)
  | makeLocalSocket name nonblocking r =>
    some (PfsIo.makeLocalSocket plat os name nonblocking r ec)
  | makeTcpSocket res servername port nonblocking inet r =>
    PfsIo.makeTcpSocket plat os res servername port nonblocking inet r ec
  | makeUdpSocket res servername port nonblocking inet =>
    PfsIo.makeUdpSocket plat os res servername port nonblocking inet ec
  | makeLocalServer name nonblocking n r =>
    let c := PfsIo.makeLocalServer plat os name nonblocking n r ec
    some ⟨some c.value, c.ec, c.os⟩
  | makeTcpServer res servername port nonblocking n inet r =>
    (PfsIo.makeTcpServer plat os res servername port nonblocking n inet r ec).map
      fun c => ⟨some c.value, c.ec, c.os⟩
  | makeUdpServer res servername port nonblocking inet r =>
    (PfsIo.makeUdpServer plat os res servername port nonblocking inet r ec).map
      fun c => ⟨some c.value, c.ec, c.os⟩
  | acceptLocal server reply => some (PfsIo.acceptLocal plat os server reply ec)
  | acceptTcp server reply => some (PfsIo.acceptTcp plat os server reply ec)

/-- The calls of the functions `make_…`; the others are of the members `accept`. -/
def isMake : FactoryCall → Bool
  | acceptLocal _ _ | acceptTcp _ _ => false
  | _ => true

/-- The overloads of the functions `make_…` without an error code, which have one of their own and
throw it if it is set: what they return or throw, and the kernel afterwards. The members `accept`
have no such overload. -/
def orThrow (plat : Platform) (os : Os) (call : FactoryCall) :
    Option (Except ErrorCode Device × Os) :=
  if call.isMake then
    (call.exec plat os .clear).map fun c =>
      (if c.ec.isSet then .error c.ec else .ok c.value, c.os)
  else none

/-- The answer makes descriptor 0. -/
def GivesZero (os : Os) (reply : FdReply) : Prop :=
  ∃ a, reply = .ok a ∧ a.pick os.opened = 0

/-- The answers and the code on entry let the call leave a descriptor behind: one that was
opened while the code was set, a socket that could not be connected, or descriptor 0, which the
clean-up of the local functions leaves alone. -/
def Strands (os : Os) (ec : ErrorCode) : FactoryCall → Prop
  | makeFile _ _ _ reply | acceptLocal _ reply | acceptTcp _ reply =>
    ec.isSet = true ∧ reply.isOk = true
  | makeLocalSocket name _ r =>
    Local.Orphans name r ∨ Local.Fits name ∧ GivesZero os r.socket ∧ ec.isSet = true
  | makeLocalServer name _ _ r =>
    Local.Fits name ∧ GivesZero os r.socket ∧
      (ec.isSet = true ∨ r.bind.isOk = false ∨ r.listen.isOk = false)
  | _ => False

/-- The ends of a call: one more descriptor, which is that of the object; an error, and no
descriptor more; an error, and a descriptor left behind. -/
inductive Balance (os : Os) (strands : Prop) (c : Ret Obj) : Prop where
  | made : ¬ strands → c.ec.isSet = false → 0 ≤ c.value.h.fd → c.value.h.fd ∉ os.opened →
      c.os.opened = insert c.value.h.fd os.opened → Balance os strands c
  | refused : ¬ strands → c.ec.isSet = true → c.os.opened = os.opened → Balance os strands c
  | stranded (fd : Int) : strands → c.ec.isSet = true → 0 ≤ fd → fd ∉ os.opened →
      c.os.opened = insert fd os.opened → Balance os strands c

variable {plat : Platform} {os : Os} {ec : ErrorCode} {call : FactoryCall}

theorem exec_eq (plat : Platform) (os : Os) (ec : ErrorCode) (call : FactoryCall) :
    call.exec plat os ec = (call.attempt plat os ec).map fun c =>
      ⟨if c.ec.isSet then call.refused else some c.value, c.ec, c.os⟩ := by
  cases call <;>
    simp only [exec, attempt, refused, PfsIo.makeFile, PfsIo.makeLocalSocket, PfsIo.makeTcpSocket,
      PfsIo.makeUdpSocket, PfsIo.makeLocalServer, PfsIo.makeTcpServer, PfsIo.makeUdpServer,
      PfsIo.acceptLocal, PfsIo.acceptTcp, Option.map_map, Function.comp_def, Option.map_some,
      apply_ite some]

/-- `file::open` makes one system call. -/
theorem os_open (plat : Platform) (os : Os) (path : Bytes) (oflags perms : Nat) (reply : FdReply)
    (ec : ErrorCode) : (File.open_ plat os path oflags perms reply ec).os = (os.newFd (.openFile
      (cStr path) (File.nativeFlags oflags) (File.nativeMode oflags perms)) reply).os := by
  simp only [File.open_, apply_ite Ret.os, ite_self]

/-- A call that is one system call, whose descriptor is lost if the code was set. -/
theorem balance_newFd (os : Os) (call : Int → Call) (reply : FdReply) (ec : ErrorCode)
    {c : Ret Obj} (hos : c.os = (os.newFd call reply).os)
    (hok : ∀ a, reply = .ok a → c.value.h.fd = a.pick os.opened ∧ c.ec = ec)
    (herror : ∀ e, reply = .error e → c.ec.isSet = true) :
    Balance os (ec.isSet = true ∧ reply.isOk = true) c := by
  cases reply with
  | error e => exact .refused (by simp) (herror e rfl) (by rw [hos, Os.opened_newFd_error])
  | ok a =>
    obtain ⟨hfd, hec⟩ := hok a rfl
    have hopened : c.os.opened = insert (a.pick os.opened) os.opened := by
      rw [hos, Os.opened_newFd_ok]
    cases hset : ec.isSet with
    | true =>
      exact .stranded _ (by simp) (hec ▸ hset) (a.nonneg _) (a.fresh _) hopened
    | false =>
      rw [← hfd] at hopened
      exact .made (by simp) (hec ▸ hset) (hfd ▸ a.nonneg _) (hfd ▸ a.fresh _) hopened

section Local

variable {name : Bytes} (nonblocking : Bool)

/-- The clean-up of the local functions, after one descriptor was opened. -/
theorem balance_cleanUp {kind : Kind} {os os' : Os} {a : Alloc} (ec : ErrorCode) (close : Reply)
    (hopened : os'.opened = insert (a.pick os.opened) os.opened) (strands : Prop)
    (hstrands : strands ↔ a.pick os.opened = 0 ∧ ec.isSet = true) :
    Balance os strands (lastObj kind (Local.cleanUp (a.pick os.opened) ec os' close)) := by
  have hnonneg := a.nonneg os.opened
  have hfresh := a.fresh os.opened
  cases hec : ec.isSet with
  | false =>
    rw [Local.cleanUp_of_clear _ _ _ _ hec]
    exact .made (by simp [hstrands, hec]) hec hnonneg hfresh hopened
  | true =>
    by_cases hzero : a.pick os.opened = 0
    · rw [hzero] at hopened hfresh ⊢
      rw [Local.cleanUp_zero]
      exact .stranded 0 (by simp [hstrands, hzero, hec]) hec (Int.le_refl 0) hfresh hopened
    · rw [Local.cleanUp_of_isSet _ _ _ hec (by omega)]
      refine .refused (by simp [hstrands, hzero]) hec ?_
      simp [lastObj, hopened, Finset.erase_insert hfresh]

/-- The clean-up closes a descriptor that is open. -/
theorem closings_cleanUp {os os' : Os} {fd : Int} (ec : ErrorCode) (close : Reply)
    (h : Closings os os' True) (hopen : fd ∈ os'.opened) :
    Closings os (Local.cleanUp fd ec os' close).os True := by
  unfold Local.cleanUp
  split
  · exact (h.trans (.close os' fd close)).congr (by simp [hopen])
  · exact h

variable (plat : Platform) (os : Os) (r : Local.OpenReplies) (ec : ErrorCode)

theorem balance_makeLocalSocket :
    Balance os ((makeLocalSocket name nonblocking r).Strands os ec)
      (lastObj .localSocket (Local.open_ plat os name nonblocking r ec)) := by
  by_cases hfit : Local.Fits name
  · cases hsocket : r.socket with
    | error e =>
      rw [Local.open_of_socket_error plat os nonblocking ec hfit hsocket]
      refine .refused ?_ (isSet_getLastSystemError_pnat plat e) rfl
      simp [Strands, Local.Orphans, GivesZero, hsocket]
    | ok a =>
      cases hconnect : r.connect with
      | error e =>
        rw [Local.open_of_connect_error plat os nonblocking ec hfit hsocket hconnect]
        refine .stranded _ (.inl ⟨hfit, ?_, ?_⟩) (isSet_getLastSystemError_pnat plat e)
          (a.nonneg os.opened) (a.fresh _) rfl
        · simp [hsocket]
        · simp [hconnect]
      | ok u =>
        rw [Local.open_of_connected plat os nonblocking ec hfit hsocket hconnect]
        refine balance_cleanUp ec r.close (by simp) _ ?_
        simp [Strands, Local.Orphans, GivesZero, hfit, hsocket, hconnect]
  · rw [Local.open_of_long plat os nonblocking ec hfit]
    exact .refused (by simp [Strands, Local.Orphans, hfit]) rfl rfl

theorem balance_makeLocalServer (n : Int) (r : Local.ServerReplies) :
    Balance os ((makeLocalServer name nonblocking n r).Strands os ec)
      (lastObj .localServer (Local.openServer plat os name nonblocking n r ec)) := by
  by_cases hfit : Local.Fits name
  · cases hsocket : r.socket with
    | error e =>
      rw [Local.openServer_of_socket_error plat os nonblocking n ec hfit hsocket]
      exact .refused (by simp [Strands, GivesZero, hsocket]) (isSet_getLastSystemError_pnat plat e)
        rfl
    | ok a =>
      rw [Local.openServer_of_socket plat os nonblocking n ec hfit hsocket]
      refine balance_cleanUp _ r.close (Local.opened_serverOs os nonblocking n a) _ ?_
      simp [Strands, GivesZero, hfit, hsocket, Local.isSet_serverCode]
  · rw [Local.openServer_of_long plat os nonblocking n ec hfit]
    exact .refused (by simp [Strands, hfit]) rfl rfl

theorem closings_makeLocalSocket :
    Closings os (Local.open_ plat os name nonblocking r ec).os True := by
  by_cases hfit : Local.Fits name
  · cases hsocket : r.socket with
    | error e =>
      rw [Local.open_of_socket_error plat os nonblocking ec hfit hsocket]
      exact .none _ (Os.log_newFd _ _ _) (by simp [Local.socketCall])
    | ok a =>
      have hcalls : ∀ reply, Closings os ((os.newFd (Local.socketCall nonblocking) (.ok a)).os.check
          (.connect (a.pick os.opened) (Local.sockaddrUn name)) reply).os True := fun reply =>
        .none [Local.socketCall nonblocking (a.pick os.opened),
          .connect (a.pick os.opened) (Local.sockaddrUn name) (Local.rcOf reply)]
          (by simp [Local.rc_check]) (by simp [Local.socketCall])
      cases hconnect : r.connect with
      | error e =>
        rw [Local.open_of_connect_error plat os nonblocking ec hfit hsocket hconnect]
        exact hcalls (.error e)
      | ok u =>
        rw [Local.open_of_connected plat os nonblocking ec hfit hsocket hconnect]
        exact closings_cleanUp ec r.close (hcalls (.ok ())) (by simp)
  · rw [Local.open_of_long plat os nonblocking ec hfit]
    exact .none [] (List.append_nil _).symm (by simp)

theorem closings_makeLocalServer (n : Int) (r : Local.ServerReplies) :
    Closings os (Local.openServer plat os name nonblocking n r ec).os True := by
  by_cases hfit : Local.Fits name
  · cases hsocket : r.socket with
    | error e =>
      rw [Local.openServer_of_socket_error plat os nonblocking n ec hfit hsocket]
      exact .none _ (Os.log_newFd _ _ _) (by simp [Local.socketCall])
    | ok a =>
      rw [Local.openServer_of_socket plat os nonblocking n ec hfit hsocket]
      refine closings_cleanUp _ r.close (.none _ (Local.log_serverOs os nonblocking n a) ?_) ?_
      · unfold Local.serverCalls Local.socketCall
        split <;> simp
      · simp [Local.opened_serverOs]
  · rw [Local.openServer_of_long plat os nonblocking n ec hfit]
    exact .none [] (List.append_nil _).symm (by simp)

end Local

section Inet

variable {res : Resolver} {servername : Bytes} {port : UInt16} {baseSocktype : Nat}
  {nonblocking : Bool} {inet : InetReplies} {c : Ret (Int × Bytes)} {d : Ret DeviceHandle}
  {o : Ret Obj} {fails : Prop}

/-- The descriptor that `open_inet_socket` returns is closed: there are two addresses or more
and the first attempt fails, or it succeeds and the code was set on entry. -/
def Stale (res : Resolver) (servername : Bytes) (port : UInt16) (socktype : Nat)
    (inet : InetReplies) (ec : ErrorCode) : Prop :=
  FirstFails res servername port socktype inet ∨
    ec.isSet = true ∧ FirstWorks res servername port socktype inet

/-- A caller of `open_inet_socket` leaves no descriptor behind. -/
theorem balance_of_inet
    (hc : openInetSocket plat os res servername port baseSocktype nonblocking inet ec = some c)
    (hneg : c.value.1 < 0 → d = ⟨⟨-1⟩, c.ec, c.os⟩) (hend : 0 ≤ c.value.1 → Proceeds c fails d)
    (hvalue : o.value.h = d.value) (hec : o.ec = d.ec) (hos : o.os = d.os) :
    Balance os False o := by
  have hfresh := openInetSocket_fresh hc
  rcases openInetSocket_cases hc with ⟨-, h | h, -⟩ | ⟨-, h⟩
  · cases hend h.nonneg with
    | kept _ hfd hcode hopened _ =>
      have hfd' : o.value.h.fd = c.value.1 := by rw [hvalue, hfd]
      refine .made not_false ?_ (hfd' ▸ h.nonneg) (hfd' ▸ h.fresh) ?_
      · rw [hec, hcode, h.ec]
      · rw [hos, hopened, h.opened, hfd']
    | closed _ hset hopened _ =>
      refine .refused not_false (hec ▸ hset) ?_
      rw [hos, hopened, h.opened, Finset.erase_insert h.fresh]
  · have hd := hneg (by rw [h.fd]; decide)
    refine .refused not_false ?_ ?_
    · rw [hec, hd, h.ec]
    · rw [hos, hd, h.opened]
  · cases hend h.nonneg with
    | kept _ _ hcode hopened _ =>
      refine .refused not_false ?_ ?_
      · rw [hec, hcode, h.ec]
      · rw [hos, hopened, h.opened]
    | closed _ hset hopened _ =>
      refine .refused not_false (hec ▸ hset) ?_
      rw [hos, hopened, h.opened, Finset.erase_eq_of_notMem (hfresh h.nonneg)]

/-- A caller of `open_inet_socket` closes a descriptor twice when it was closed before and a
step of the caller fails. -/
theorem closings_of_inet
    (hc : openInetSocket plat os res servername port baseSocktype nonblocking inet ec = some c)
    (hneg : c.value.1 < 0 → d = ⟨⟨-1⟩, c.ec, c.os⟩) (hend : 0 ≤ c.value.1 → Proceeds c fails d) :
    Closings os d.os
      (¬ (Stale res servername port (inetSockType baseSocktype nonblocking) inet ec ∧ fails)) := by
  have hinet := openInetSocket_closings hc
  have hfresh := openInetSocket_fresh hc
  rcases openInetSocket_cases hc with ⟨hstale, h | h, -⟩ | ⟨hstale, h⟩
  · have hclean : ¬ Stale res servername port (inetSockType baseSocktype nonblocking) inet ec :=
      hstale
    cases hend h.nonneg with
    | kept _ _ _ _ hd => exact (hinet.trans hd).congr (by simp [hclean])
    | closed _ _ _ hd => exact (hinet.trans hd).congr (by simp [hclean, h.opened])
  · have hclean : ¬ Stale res servername port (inetSockType baseSocktype nonblocking) inet ec :=
      hstale
    rw [hneg (by rw [h.fd]; decide)]
    exact hinet.congr (by simp [hclean])
  · have hdirty : Stale res servername port (inetSockType baseSocktype nonblocking) inet ec :=
      hstale
    cases hend h.nonneg with
    | kept hno _ _ _ hd => exact (hinet.trans hd).congr (by simp [hno])
    | closed hfails _ _ hd =>
      refine (hinet.trans hd).congr ?_
      simp [hdirty, hfails, h.opened, hfresh h.nonneg]

end Inet

/-- The calls in which a descriptor that `open_inet_socket` has closed is closed again. -/
def Recloses (ec : ErrorCode) : FactoryCall → Prop
  | makeTcpSocket res servername port nonblocking inet r =>
    Stale res servername port (inetSockType sockStream nonblocking) inet ec ∧
      r.connect.isOk = false
  | makeTcpServer res servername port nonblocking _ inet r =>
    Stale res servername port (inetSockType sockStream nonblocking) inet ec ∧
      r.setsockopt.isOk = true ∧ (r.bind.isOk = false ∨ r.listen.isOk = false)
  | makeUdpServer res servername port nonblocking inet r =>
    Stale res servername port (inetSockType sockDgram nonblocking) inet ec ∧
      r.setsockopt.isOk = true ∧ r.bind.isOk = false
  | _ => False

variable {c : Ret Obj}

/-- How each call ends that returns. -/
theorem attempt_balance (hc : call.attempt plat os ec = some c) :
    Balance os (call.Strands os ec) c := by
  cases call with
  | makeFile path oflags perms reply =>
    obtain rfl := Option.some.inj hc
    refine balance_newFd os _ reply ec (os_open plat os path oflags perms reply ec) ?_ ?_
    · rintro a rfl
      simp [File.open_, a.nonneg, Obj.ofHandle]
    · rintro e rfl
      simp [File.open_]
  | makeLocalSocket name nonblocking r =>
    obtain rfl := Option.some.inj hc
    exact balance_makeLocalSocket nonblocking plat os r ec
  | makeTcpSocket res servername port nonblocking inet r =>
    rw [attempt_makeTcpSocket] at hc
    obtain ⟨d, hd, rfl⟩ := Option.map_eq_some_iff.mp hc
    exact balance_of_inet hd (fun hneg => Tcp.connectTo_of_neg hneg r)
      (fun hfd => Tcp.connectTo_proceeds hfd r) rfl rfl rfl
  | makeUdpSocket res servername port nonblocking inet =>
    rw [attempt_makeUdpSocket] at hc
    obtain ⟨d, hd, rfl⟩ := Option.map_eq_some_iff.mp hc
    exact balance_of_inet hd (fun hneg => Udp.keep_of_neg hneg) (fun hfd => Udp.keep_proceeds hfd)
      rfl rfl rfl
  | makeLocalServer name nonblocking n r =>
    obtain rfl := Option.some.inj hc
    exact balance_makeLocalServer nonblocking plat os ec n r
  | makeTcpServer res servername port nonblocking n inet r =>
    rw [attempt_makeTcpServer] at hc
    obtain ⟨d, hd, rfl⟩ := Option.map_eq_some_iff.mp hc
    exact balance_of_inet hd (fun hneg => Tcp.listenAt_of_neg hneg n r)
      (fun hfd => Tcp.listenAt_proceeds hfd n r) rfl rfl rfl
  | makeUdpServer res servername port nonblocking inet r =>
    rw [attempt_makeUdpServer] at hc
    obtain ⟨d, hd, rfl⟩ := Option.map_eq_some_iff.mp hc
    exact balance_of_inet hd (fun hneg => Udp.bindTo_of_neg hneg r)
      (fun hfd => Udp.bindTo_proceeds hfd r) rfl rfl rfl
  | acceptLocal server reply | acceptTcp server reply =>
    obtain rfl := Option.some.inj hc
    refine balance_newFd os (.accept server.h.fd) reply ec rfl ?_ ?_
    · rintro a rfl
      simp [Local.accept, Tcp.accept, Obj.ofHandle, handleOf_pick, Int.not_lt.mpr (a.nonneg _)]
    · rintro e rfl
      simp [Local.accept, Tcp.accept]

/-- Each call that returns closes only what is open, unless it closes a descriptor twice. -/
theorem attempt_log (hc : call.attempt plat os ec = some c) :
    Closings os c.os (¬ call.Recloses ec) := by
  cases call with
  | makeFile path oflags perms reply =>
    obtain rfl := Option.some.inj hc
    have hlog := (congrArg Os.log (os_open plat os path oflags perms reply ec)).trans
      (Os.log_newFd os _ reply)
    exact (Closings.none _ hlog (by simp)).congr (by simp [Recloses])
  | makeLocalSocket name nonblocking r =>
    obtain rfl := Option.some.inj hc
    exact (closings_makeLocalSocket nonblocking plat os r ec).congr (by simp [Recloses])
  | makeTcpSocket res servername port nonblocking inet r =>
    rw [attempt_makeTcpSocket] at hc
    obtain ⟨d, hd, rfl⟩ := Option.map_eq_some_iff.mp hc
    exact closings_of_inet hd (fun hneg => Tcp.connectTo_of_neg hneg r)
      (fun hfd => Tcp.connectTo_proceeds hfd r)
  | makeUdpSocket res servername port nonblocking inet =>
    rw [attempt_makeUdpSocket] at hc
    obtain ⟨d, hd, rfl⟩ := Option.map_eq_some_iff.mp hc
    exact (openInetSocket_closings hd).congr (by simp [Recloses])
  | makeLocalServer name nonblocking n r =>
    obtain rfl := Option.some.inj hc
    exact (closings_makeLocalServer nonblocking plat os ec n r).congr (by simp [Recloses])
  | makeTcpServer res servername port nonblocking n inet r =>
    rw [attempt_makeTcpServer] at hc
    obtain ⟨d, hd, rfl⟩ := Option.map_eq_some_iff.mp hc
    exact closings_of_inet hd (fun hneg => Tcp.listenAt_of_neg hneg n r)
      (fun hfd => Tcp.listenAt_proceeds hfd n r)
  | makeUdpServer res servername port nonblocking inet r =>
    rw [attempt_makeUdpServer] at hc
    obtain ⟨d, hd, rfl⟩ := Option.map_eq_some_iff.mp hc
    exact closings_of_inet hd (fun hneg => Udp.bindTo_of_neg hneg r)
      (fun hfd => Udp.bindTo_proceeds hfd r)
  | acceptLocal server reply | acceptTcp server reply =>
    obtain rfl := Option.some.inj hc
    exact (Closings.none _ (Os.log_newFd os (.accept server.h.fd) reply) (by simp)).congr
      (by simp [Recloses])

theorem orThrow_eq_some {r : Except ErrorCode Device} {os' : Os}
    (h : call.orThrow plat os = some (r, os')) :
    ∃ c, call.attempt plat os .clear = some c ∧ os' = c.os ∧
      r = if c.ec.isSet then .error c.ec else .ok (some c.value) := by
  obtain ⟨-, h⟩ := Option.ite_none_right_eq_some.mp h
  rw [exec_eq, Option.map_map] at h
  obtain ⟨c, hc, heq⟩ := Option.map_eq_some_iff.mp h
  obtain ⟨hr, hos⟩ := Prod.mk.inj heq
  refine ⟨c, hc, hos.symm, hr.symm.trans ?_⟩
  simp only
  split <;> rfl

/-- The overloads of the functions `make_…` that throw, with any answers on which they come to an
end: they return an object that is open, on the one descriptor more, if the answers let the call
succeed; else they throw an error, and the descriptors are as before unless the call leaves one
behind. -/
theorem orThrow_ends (plat : Platform) (os : Os) (call : FactoryCall)
    (r : Except ErrorCode Device) (os' : Os) (h : call.orThrow plat os = some (r, os')) :
    call.isMake = true ∧
      ((call.Delivers ∧ ∃ o, r = .ok (some o) ∧ o.opened = true ∧ o.h.fd ∉ os.opened ∧
          os'.opened = insert o.h.fd os.opened) ∨
        ¬ call.Delivers ∧ ∃ code, r = .error code ∧ code.isSet = true ∧
          (¬ call.Strands os .clear ∧ os'.opened = os.opened ∨
            call.Strands os .clear ∧
              ∃ fd, fd ∉ os.opened ∧ os'.opened = insert fd os.opened)) := by
  refine ⟨(Option.ite_none_right_eq_some.mp h).1, ?_⟩
  obtain ⟨c, hc, rfl, rfl⟩ := orThrow_eq_some h
  have hdelivers : call.Delivers ↔ c.ec.isSet = false := by
    constructor
    · intro hyes
      obtain ⟨o, -, hattempt⟩ := hyes.succeeds plat os
      obtain ⟨d, hd, hec, -⟩ := hattempt .clear
      obtain rfl := Option.some.inj (hd.symm.trans hc)
      rw [hec, ErrorCode.isSet_clear]
    · intro hec
      by_contra hno
      have hset := (Delivers.fails plat os hno).isSet .clear c hc
      simp [hec] at hset
  rw [hdelivers]
  cases attempt_balance hc with
  | made _ hec hfd hfresh hopened =>
    refine .inl ⟨hec, c.value, by simp [hec], ?_, hfresh, hopened⟩
    exact decide_eq_true hfd
  | refused hno hec hopened =>
    exact .inr ⟨by simp [hec], c.ec, by simp [hec], hec, .inl ⟨hno, hopened⟩⟩
  | stranded fd hstrands hec _ hfresh hopened =>
    exact .inr ⟨by simp [hec], c.ec, by simp [hec], hec, .inr ⟨hstrands, fd, hfresh, hopened⟩⟩

/-- A local socket whose connection stands. -/
def served : FactoryCall := .makeLocalSocket [33] false ⟨.ok (.prefer 3), .ok (), .ok ()⟩

theorem orThrow_ends_served :
    ∃ r os', served.orThrow .linux ⟨∅, 0, []⟩ = some (r, os') ∧ os'.opened = {3} ∧
      served.isMake = true ∧
        ((served.Delivers ∧ ∃ o, r = .ok (some o) ∧ o.opened = true ∧ o.h.fd ∉ (∅ : Finset Int) ∧
            os'.opened = insert o.h.fd ∅) ∨
          ¬ served.Delivers ∧ ∃ code, r = .error code ∧ code.isSet = true ∧
            (¬ served.Strands ⟨∅, 0, []⟩ .clear ∧ os'.opened = ∅ ∨
              served.Strands ⟨∅, 0, []⟩ .clear ∧
                ∃ fd, fd ∉ (∅ : Finset Int) ∧ os'.opened = insert fd ∅)) :=
  ⟨_, _, rfl, rfl, orThrow_ends .linux ⟨∅, 0, []⟩ served _ _ rfl⟩

end FactoryCall

end PfsIo
