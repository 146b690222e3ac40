import PfsIo.Inet.Failover
import PfsIo.Inet.ServerEnd

/-!
# What `open_inet_socket` leaves behind

On the scripts of answers on which it returns, with a clear error code on entry. When a
second attempt succeeds after the first has failed, the error of the first is still in the
error code: the new descriptor is closed and returned all the same, and the four callers
go on with it.

## Main results

* `AddressLoop.run_retry` — the loop that returns after a failed attempt.
* `openInetSocket_delivers_iff` — when the result is a clean success or a clean failure,
  and when the callers keep away from a closed descriptor.
-/

namespace PfsIo

open Library

namespace AddressLoop

variable {plat : Platform} {port : UInt16} {addrs : AddrList} {s t : AddressState addrs}
  {p : addrs.Ptr} {replies rest : List FdReply}

/-- The loop has failed at least once and is at the second entry again. -/
structure Retrying (os : Os) (s : AddressState addrs) : Prop where
  entry : ∃ p, s.p = some p ∧ 1 < addrs.1.length
  ec : s.ec.isSet = true
  opened : s.os.opened = os.opened
  log : os.log <+: s.os.log

/-- The loop has opened a descriptor, but the error code is set. -/
structure Reopened (os : Os) (s : AddressState addrs) : Prop where
  fd : 0 ≤ s.fd
  ec : s.ec.isSet = true
  fresh : s.fd ∉ os.opened
  opened : s.os.opened = insert s.fd os.opened
  log : os.log <+: s.os.log

theorem Retrying.failed {os : Os} (hlen : 1 < addrs.1.length) (hopened : s.os.opened = os.opened)
    (hlog : os.log <+: s.os.log) (p : addrs.Ptr) (e : ℕ+) : Retrying os (failed plat s p e) :=
  ⟨⟨second addrs hlen, aiNext_first hlen, hlen⟩, isSet_getLastSystemError_pnat plat e, hopened,
    hlog.trans (List.prefix_append _ _)⟩

theorem Retrying.selected {os : Os} (h : Retrying os s) (port : UInt16) (p : addrs.Ptr)
    (a : Alloc) : Reopened os (selected port s p a) :=
  ⟨a.nonneg _, h.ec, h.opened ▸ a.fresh _, congrArg (insert _) h.opened,
    h.log.trans (List.prefix_append _ _)⟩

/-- With two entries or more, the loop that returns after a failed attempt has failed up to
the last attempt, which has opened a descriptor. -/
theorem run_retry_selected {os : Os} (hs : Retrying os s)
    (hrun : (addressLoop plat port addrs).run s replies = some (t, rest)) :
    ∃ u p a, Retrying os u ∧ t = selected port u p a := by
  refine run_rule (Retrying os) (fun t => ∃ u p a, Retrying os u ∧ t = selected port u p a)
    ?_ ?_ ?_ hs hrun
  · intro u q e hu _
    obtain ⟨-, -, hlen⟩ := hu.entry
    exact .failed hlen hu.opened hu.log q e
  · intro u q a hu _
    exact ⟨u, q, a, hu, rfl⟩
  · intro u hu hnone
    obtain ⟨q, hq, -⟩ := hu.entry
    simp [hq] at hnone

/-- That loop has opened a descriptor and keeps the error. -/
theorem run_retry {os : Os} (hs : Retrying os s)
    (hrun : (addressLoop plat port addrs).run s replies = some (t, rest)) : Reopened os t := by
  obtain ⟨u, p, a, hu, rfl⟩ := run_retry_selected hs hrun
  exact hu.selected port p a

/-- Its last call was one of `::socket`. -/
theorem run_retry_log {os : Os} (hs : Retrying os s)
    (hrun : (addressLoop plat port addrs).run s replies = some (t, rest)) :
    ∃ before p, t.os.log = os.log ++ (before ++ [socketCall addrs p t.fd]) := by
  obtain ⟨u, p, a, hu, rfl⟩ := run_retry_selected hs hrun
  obtain ⟨before, hbefore⟩ := hu.log
  refine ⟨before, p, ?_⟩
  simp [AddressLoop.selected, ← hbefore]

end AddressLoop

theorem not_closedSince_socket (os : Os) (addrs : AddrList) (p : addrs.Ptr) (reply : FdReply)
    (fd : Int) : ¬ ClosedSince os (os.newFd (AddressLoop.socketCall addrs p) reply).os fd := by
  rintro ⟨wasOpen, rc, hmem⟩
  rw [callsSince_of_append (Os.log_newFd os _ _)] at hmem
  simp [AddressLoop.socketCall] at hmem

/-- The descriptor that is connected, bound, listened on or closed by a call. -/
def Call.target : Call → Option Int
  | .connect fd _ _ | .bind fd _ _ | .listen fd _ _ | .close fd _ _ => some fd
  | _ => none

/-- Success: no error, and one more open descriptor, which is the result. -/
structure Delivered (os : Os) (c : Ret (Int × Bytes)) : Prop where
  ec : c.ec.isSet = false
  nonneg : 0 ≤ c.value.1
  fresh : c.value.1 ∉ os.opened
  opened : c.os.opened = insert c.value.1 os.opened

/-- Failure: an error, no descriptor, and the same descriptors open as before. -/
structure Refused (os : Os) (c : Ret (Int × Bytes)) : Prop where
  ec : c.ec.isSet = true
  fd : c.value.1 = -1
  opened : c.os.opened = os.opened

/-- Neither: an error, and a descriptor that was opened and closed again. -/
structure Botched (os : Os) (c : Ret (Int × Bytes)) : Prop where
  ec : c.ec.isSet = true
  nonneg : 0 ≤ c.value.1
  opened : c.os.opened = os.opened
  closed : ClosedSince os c.os c.value.1

theorem AddressLoop.Reopened.botched {addrs : AddrList} {os : Os} {t : AddressState addrs}
    (h : AddressLoop.Reopened os t) (close : Reply) : Botched os (inetResult t close) := by
  rw [inetResult_of_isSet close h.fd h.ec]
  refine ⟨h.ec, h.fd, ?_, ?_⟩
  · simp [h.opened, Finset.erase_insert h.fresh]
  · obtain ⟨more, hmore⟩ := h.log
    have hlog : (t.os.close t.fd close).os.log = os.log ++ (more ++ [.close t.fd
        (decide (t.fd ∈ t.os.opened)) (t.os.close t.fd close).rc]) := by
      rw [Os.log_close, ← hmore, List.append_assoc]
    refine ⟨decide (t.fd ∈ t.os.opened), (t.os.close t.fd close).rc, ?_⟩
    rw [callsSince_of_append hlog]
    simp

/-- There are two addresses or more, and `::socket` fails for the first. -/
def FirstFails (res : Resolver) (servername : Bytes) (port : UInt16) (socktype : Nat)
    (r : InetReplies) : Prop :=
  ∃ addrs, resultAddr res servername port socktype = some addrs ∧ 1 < addrs.1.length ∧
    ∃ e rest, r.socket = .error e :: rest

theorem not_closedSince_self (os : Os) (fd : Int) : ¬ ClosedSince os os fd := by
  rintro ⟨wasOpen, rc, hmem⟩
  simp [callsSince] at hmem

section Attempts

variable (plat : Platform) (os : Os) (port : UInt16) (addrs : AddrList) {ec : ErrorCode}
  (close : Reply)

/-- The first attempt succeeds, with a clear error code on entry. -/
theorem delivered_first (hec : ec.isSet = false) (a : Alloc) :
    let c := inetResult (AddressLoop.selected port (.start addrs ec os) addrs.first a) close
    Delivered os c ∧ ∀ fd, ¬ ClosedSince os c.os fd := by
  have hresult := inetResult_of_clear close (s := AddressLoop.selected port (.start addrs ec os)
    addrs.first a) (a.nonneg _) hec
  simp only [hresult]
  exact ⟨⟨hec, a.nonneg _, a.fresh _, rfl⟩, not_closedSince_socket os addrs addrs.first (.ok a)⟩

/-- The first attempt succeeds, but the error code was set on entry. -/
theorem botched_first (hec : ec.isSet = true) (a : Alloc) :
    Botched os (inetResult (AddressLoop.selected port (.start addrs ec os) addrs.first a) close) :=
  have h : AddressLoop.Reopened os
      (AddressLoop.selected port (.start addrs ec os) addrs.first a) :=
    ⟨a.nonneg _, hec, a.fresh _, rfl, List.prefix_append _ _⟩
  h.botched close

/-- The attempt on a single address fails. -/
theorem refused_single (e : ℕ+) :
    let c := inetResult (AddressLoop.failed plat (.start addrs .clear os) addrs.first e) close
    Refused os c ∧ ∀ fd, ¬ ClosedSince os c.os fd := by
  have hresult := inetResult_of_neg close (s := AddressLoop.failed plat (.start addrs .clear os)
    addrs.first e) (Int.negSucc_lt_zero 0)
  simp only [hresult]
  exact ⟨⟨isSet_getLastSystemError_pnat plat e, rfl, rfl⟩,
    not_closedSince_socket os addrs addrs.first (.error e)⟩

end Attempts

/-- The four ways out of the function, with what it returns. -/
inductive InetExit (plat : Platform) (os : Os) (res : Resolver) (servername : Bytes)
    (port : UInt16) (socktype : Nat) (r : InetReplies) (ec : ErrorCode) :
    Ret (Int × Bytes) → Prop where
  | unresolved : resultAddr res servername port socktype = none →
      InetExit plat os res servername port socktype r ec
        ⟨(-1, []), makeErrorCode .hostNotFound, os⟩
  | first (addrs : AddrList) (a : Alloc) (rest : List FdReply) :
      resultAddr res servername port socktype = some addrs → r.socket = .ok a :: rest →
      InetExit plat os res servername port socktype r ec
        (inetResult (AddressLoop.selected port (.start addrs ec os) addrs.first a) r.close)
  | single (addrs : AddrList) (e : ℕ+) (rest : List FdReply) :
      resultAddr res servername port socktype = some addrs → r.socket = .error e :: rest →
      ¬ 1 < addrs.1.length →
      InetExit plat os res servername port socktype r ec
        (inetResult (AddressLoop.failed plat (.start addrs .clear os) addrs.first e) r.close)
  | retried (addrs : AddrList) (e : ℕ+) (rest rest' : List FdReply) (t : AddressState addrs) :
      resultAddr res servername port socktype = some addrs → r.socket = .error e :: rest →
      1 < addrs.1.length →
      (addressLoop plat port addrs).run
        (AddressLoop.failed plat (.start addrs .clear os) addrs.first e) rest = some (t, rest') →
      InetExit plat os res servername port socktype r ec (inetResult t r.close)

section Exits

variable {plat : Platform} {os : Os} {res : Resolver} {servername : Bytes} {port : UInt16}
  {socktype : Nat} {r : InetReplies} {addrs : AddrList} {rest : List FdReply}

theorem openInetSocket_exit {baseSocktype : Nat} {nonblocking : Bool} {ec : ErrorCode}
    {c : Ret (Int × Bytes)}
    (hc : openInetSocket plat os res servername port baseSocktype nonblocking r ec = some c) :
    InetExit plat os res servername port (inetSockType baseSocktype nonblocking) r ec c := by
  cases hres : resultAddr res servername port (inetSockType baseSocktype nonblocking) with
  | none =>
    simp only [openInetSocket, hres] at hc
    obtain rfl := Option.some.inj hc
    exact .unresolved hres
  | some addrs =>
    cases hsocket : r.socket with
    | nil => simp [openInetSocket_of_nil hres hsocket] at hc
    | cons reply rest =>
      cases reply with
      | ok a =>
        obtain rfl := Option.some.inj ((openInetSocket_of_ok hres hsocket ec).symm.trans hc)
        exact .first addrs a rest hres hsocket
      | error e =>
        rw [openInetSocket_of_error hres hsocket] at hc
        obtain ⟨⟨t, rest'⟩, hrun, rfl⟩ := Option.map_eq_some_iff.mp hc
        by_cases hlen : 1 < addrs.1.length
        · exact .retried addrs e rest rest' t hres hsocket hlen hrun
        · rw [AddressLoop.run_failed hlen] at hrun
          obtain ⟨rfl, rfl⟩ := Prod.mk.inj (Option.some.inj hrun)
          exact .single addrs e rest hres hsocket hlen

theorem not_firstWorks_of_error {e : ℕ+} (h : r.socket = .error e :: rest) :
    ¬ FirstWorks res servername port socktype r := by
  rintro ⟨-, -, a, rest', h'⟩
  simp [h] at h'

theorem not_firstFails_of_ok {a : Alloc} (h : r.socket = .ok a :: rest) :
    ¬ FirstFails res servername port socktype r := by
  rintro ⟨-, -, -, e, rest', h'⟩
  simp [h] at h'

theorem not_first_of_unresolved (h : resultAddr res servername port socktype = none) :
    ¬ FirstWorks res servername port socktype r ∧ ¬ FirstFails res servername port socktype r := by
  constructor
  · rintro ⟨addrs, haddrs, -⟩
    simp [h] at haddrs
  · rintro ⟨addrs, haddrs, -⟩
    simp [h] at haddrs

theorem not_firstFails_of_single (h : resultAddr res servername port socktype = some addrs)
    (hlen : ¬ 1 < addrs.1.length) : ¬ FirstFails res servername port socktype r := by
  rintro ⟨addrs', haddrs', hlen', -⟩
  obtain rfl := Option.some.inj (h.symm.trans haddrs')
  exact hlen hlen'

/-- With two addresses or more, the loop goes on after the first attempt has failed. -/
theorem retrying_first (plat : Platform) (os : Os) (hlen : 1 < addrs.1.length) (e : ℕ+) :
    AddressLoop.Retrying os
      (AddressLoop.failed plat (.start addrs .clear os) addrs.first e) :=
  .failed (s := .start addrs .clear os) hlen rfl (List.prefix_refl _) addrs.first e

end Exits

/-- The function ends in success or failure, unless the first attempt fails and a later
one succeeds, or the first attempt succeeds and the error code was set on entry. -/
theorem openInetSocket_cases {plat : Platform} {os : Os} {res : Resolver} {servername : Bytes}
    {port : UInt16} {baseSocktype : Nat} {nonblocking : Bool} {r : InetReplies}
    {ec : ErrorCode} {c : Ret (Int × Bytes)}
    (hc : openInetSocket plat os res servername port baseSocktype nonblocking r ec = some c) :
    let socktype := inetSockType baseSocktype nonblocking
    let stale := FirstFails res servername port socktype r ∨
      ec.isSet = true ∧ FirstWorks res servername port socktype r
    (¬ stale ∧ (Delivered os c ∨ Refused os c) ∧ ∀ fd, ¬ ClosedSince os c.os fd) ∨
      (stale ∧ Botched os c) := by
  intro socktype stale
  cases openInetSocket_exit hc with
  | unresolved hres =>
    obtain ⟨hnotWorks, hnotFails⟩ := not_first_of_unresolved (r := r) hres
    exact .inl ⟨not_or.mpr ⟨hnotFails, fun h => hnotWorks h.2⟩, .inr ⟨rfl, rfl, rfl⟩,
      not_closedSince_self os⟩
  | first addrs a rest hres hsocket =>
    cases hec : ec.isSet with
    | true =>
      exact .inr ⟨.inr ⟨hec, addrs, hres, a, rest, hsocket⟩,
        botched_first os port addrs r.close hec a⟩
    | false =>
      obtain ⟨hdelivered, hnone⟩ := delivered_first os port addrs r.close hec a
      refine .inl ⟨?_, .inl hdelivered, hnone⟩
      rintro (hfails | ⟨hset, -⟩)
      · exact not_firstFails_of_ok hsocket hfails
      · simp [hec] at hset
  | single addrs e rest hres hsocket hlen =>
    obtain ⟨hrefused, hnone⟩ := refused_single plat os addrs r.close e
    refine .inl ⟨?_, .inr hrefused, hnone⟩
    rintro (hfails | ⟨-, hworks⟩)
    · exact not_firstFails_of_single hres hlen hfails
    · exact not_firstWorks_of_error hsocket hworks
  | retried addrs e rest rest' t hres hsocket hlen hrun =>
    exact .inr ⟨.inl ⟨addrs, hres, hlen, e, rest, hsocket⟩,
      (AddressLoop.run_retry (retrying_first plat os hlen e) hrun).botched r.close⟩

section Outcome

variable {plat : Platform} {os : Os} {res : Resolver} {servername : Bytes} {port : UInt16}
  {baseSocktype : Nat} {nonblocking : Bool} {r : InetReplies} {ec : ErrorCode}
  {c : Ret (Int × Bytes)}

/-- With a clear error code, a descriptor was delivered. -/
theorem delivered_of_clear
    (hc : openInetSocket plat os res servername port baseSocktype nonblocking r ec = some c)
    (hec : c.ec.isSet = false) : Delivered os c := by
  rcases openInetSocket_cases hc with ⟨-, hends, -⟩ | ⟨-, hbotched⟩
  · rcases hends with h | h
    · exact h
    · exact absurd h.ec (by simp [hec])
  · exact absurd hbotched.ec (by simp [hec])

/-- With an error, no more and no fewer descriptors are open than before. -/
theorem opened_of_isSet
    (hc : openInetSocket plat os res servername port baseSocktype nonblocking r ec = some c)
    (hec : c.ec.isSet = true) : c.os.opened = os.opened := by
  rcases openInetSocket_cases hc with ⟨-, hends, -⟩ | ⟨-, hbotched⟩
  · rcases hends with h | h
    · exact absurd h.ec (by simp [hec])
    · exact h.opened
  · exact hbotched.opened

end Outcome

/-- The functions that call `open_inet_socket`, with the answers to their own calls. -/
inductive InetCaller where
  | tcpOpen (r : Tcp.OpenReplies)
  | tcpOpenServer (maxPendingConnections : Int) (r : Tcp.ServerReplies)
  | udpOpen (paddr : Option HostAddress)
  | udpOpenServer (r : Tcp.ServerReplies)

namespace InetCaller

/-- The type of socket that the function asks for. -/
def socktype : InetCaller → Nat
  | tcpOpen _ | tcpOpenServer _ _ => sockStream
  | udpOpen _ | udpOpenServer _ => sockDgram

/-- The call of the function. -/
def exec (plat : Platform) (os : Os) (res : Resolver) (servername : Bytes) (port : UInt16)
    (nonblocking : Bool) (inet : InetReplies) (ec : ErrorCode) :
    InetCaller → Option (Ret DeviceHandle)
  | tcpOpen r => Tcp.open_ plat os res servername port nonblocking inet r ec
  | tcpOpenServer n r => Tcp.openServer plat os res servername port nonblocking n inet r ec
  | udpOpen paddr => (Udp.open_ plat os res servername port nonblocking paddr inet ec).map
      fun d => ⟨d.value.1, d.ec, d.os⟩
  | udpOpenServer r => Udp.openServer plat os res servername port nonblocking inet r ec

/-- What the function does after the call of `open_inet_socket`. -/
def proceed (plat : Platform) (c : Ret (Int × Bytes)) : InetCaller → Ret DeviceHandle
  | tcpOpen r => Tcp.connectTo plat c r
  | tcpOpenServer n r => Tcp.listenAt plat c n r
  | udpOpen paddr =>
    let d := Udp.storeAddress c paddr
    ⟨d.value.1, d.ec, d.os⟩
  | udpOpenServer r => Udp.bindTo plat c r

theorem exec_eq (plat : Platform) (os : Os) (res : Resolver) (servername : Bytes)
    (port : UInt16) (nonblocking : Bool) (inet : InetReplies) (ec : ErrorCode)
    (caller : InetCaller) :
    caller.exec plat os res servername port nonblocking inet ec =
      (openInetSocket plat os res servername port caller.socktype nonblocking inet ec).map
        fun c => caller.proceed plat c := by
  cases caller with
  | udpOpen paddr => simp [exec, Udp.open_, socktype, proceed, Function.comp_def]
  | _ => rfl

end InetCaller

/-- A caller connects, binds, listens on, closes or returns a descriptor that
`open_inet_socket` has closed, where `os`, `c` and `d` are the states before the call,
after the call of `open_inet_socket`, and at the end. -/
def UsesClosed (os : Os) (c : Ret (Int × Bytes)) (d : Ret DeviceHandle) : Prop :=
  ∃ fd, ClosedSince os c.os fd ∧
    (d.value.fd = fd ∨ ∃ call ∈ callsSince c.os d.os, call.target = some fd)

/-- A server function returns the descriptor or, when a step fails, closes it. -/
theorem ServerEnd.uses {option done : Prop} {steps : List Call} {c : Ret (Int × Bytes)}
    {d : Ret DeviceHandle} (h : ServerEnd option done steps c d) :
    d.value.fd = c.value.1 ∨ ∃ call ∈ callsSince c.os d.os, call.target = some c.value.1 := by
  cases h with
  | unset _ hvalue _ _ => exact .inl (by rw [hvalue])
  | ready _ _ hvalue _ _ _ => exact .inl (by rw [hvalue])
  | closed tried wasOpen rc _ _ _ _ _ _ hlog =>
    refine .inr ⟨.close c.value.1 wasOpen rc, ?_, rfl⟩
    rw [callsSince_of_append hlog]
    simp

/-- Each caller goes on with the descriptor it is given. -/
theorem InetCaller.uses (plat : Platform) (c : Ret (Int × Bytes)) (hfd : 0 ≤ c.value.1)
    (caller : InetCaller) :
    (caller.proceed plat c).value.fd = c.value.1 ∨
      ∃ call ∈ callsSince c.os (caller.proceed plat c).os, call.target = some c.value.1 := by
  cases caller with
  | tcpOpen r =>
    right
    obtain ⟨connect, close⟩ := r
    cases connect <;>
      simp [proceed, Tcp.connectTo, hfd, callsSince, Call.target, List.append_assoc]
  | tcpOpenServer n r => exact (Tcp.listenAt_end hfd n r).uses
  | udpOpen paddr =>
    left
    exact congrArg DeviceHandle.fd (handleOf_of_nonneg hfd)
  | udpOpenServer r => exact (Udp.bindTo_end hfd r).uses

/-- On the scripts on which it returns, and with a clear error code, the function ends in
success or in failure, and its callers keep away from closed descriptors, unless there
are two addresses or more and the first attempt fails. -/
theorem openInetSocket_delivers_iff (plat : Platform) (os : Os) (res : Resolver)
    (servername : Bytes) (port : UInt16) (baseSocktype : Nat) (nonblocking : Bool)
    (r : InetReplies) (c : Ret (Int × Bytes))
    (hc : openInetSocket plat os res servername port baseSocktype nonblocking r .clear = some c) :
    (Xor (Delivered os c) (Refused os c) ↔
      ¬ FirstFails res servername port (inetSockType baseSocktype nonblocking) r) ∧
    ∀ caller : InetCaller, caller.socktype = baseSocktype →
      ∀ d, caller.exec plat os res servername port nonblocking r .clear = some d →
        (¬ UsesClosed os c d ↔
          ¬ FirstFails res servername port (inetSockType baseSocktype nonblocking) r) := by
  have hcases := openInetSocket_cases hc
  simp only [ErrorCode.isSet_clear, Bool.false_eq_true, false_and, or_false] at hcases
  refine ⟨?_, ?_⟩
  · rcases hcases with ⟨hno, hends, -⟩ | ⟨hfails, hbotched⟩
    · refine iff_of_true ?_ hno
      rcases hends with h | h
      · exact .inl ⟨h, fun h' => absurd h'.ec (by simp [h.ec])⟩
      · exact .inr ⟨h, fun h' => absurd h'.ec (by simp [h.ec])⟩
    · refine iff_of_false ?_ (not_not_intro hfails)
      rintro (⟨h, -⟩ | ⟨h, -⟩)
      · exact absurd hbotched.ec (by simp [h.ec])
      · have hnonneg := hbotched.nonneg
        have hfd := h.fd
        omega
  · rintro caller rfl d hd
    rw [InetCaller.exec_eq, hc, Option.map_some, Option.some.injEq] at hd
    subst hd
    rcases hcases with ⟨hno, -, hnone⟩ | ⟨hfails, hbotched⟩
    · refine iff_of_true ?_ hno
      rintro ⟨fd, hclosed, -⟩
      exact hnone fd hclosed
    · refine iff_of_false ?_ (not_not_intro hfails)
      exact not_not_intro ⟨c.value.1, hbotched.closed, caller.uses plat c hbotched.nonneg⟩

/-- The numeric address 1.0.0.1. -/
def dotted : Bytes := [49, 46, 48, 46, 48, 46, 49]

/-- Two addresses of the host for datagrams. -/
def datagramAddrs : AddrList :=
  ⟨[⟨afInet6, sockDgram, 17, sockaddrIn6 0 (List.replicate 16 1)⟩,
    ⟨afInet, sockDgram, 17, sockaddrIn 0 [10, 0, 0, 1]⟩], by simp⟩

/-- A resolver that knows one host, with three addresses for streams, and one numeric address. -/
def threeResolver : Resolver where
  pton4 name := if name = dotted then some ⟨[1, 0, 0, 1], rfl⟩ else none
  pton6 _ := none
  getaddrinfo _ hints :=
    .ok (if hints.socktype = sockDgram then datagramAddrs else AddressLoop.threeAddrs)

/-- What `open_inet_socket` returns for the host when its first address works. -/
def firstOfThree : Ret (Int × Bytes) :=
  ⟨(3, sockaddrIn6 80 (List.replicate 16 1)), .clear, ⟨{3}, 0, [.socket afInet6 sockStream 6 3]⟩⟩

theorem openInetSocket_delivers_first :
    (Xor (Delivered ⟨∅, 0, []⟩ firstOfThree) (Refused ⟨∅, 0, []⟩ firstOfThree) ↔
      ¬ FirstFails threeResolver [104] 80 sockStream ⟨[.ok (.prefer 3)], .ok ()⟩) ∧
    ∀ caller : InetCaller, caller.socktype = sockStream →
      ∀ d, caller.exec .linux ⟨∅, 0, []⟩ threeResolver [104] 80 false
          ⟨[.ok (.prefer 3)], .ok ()⟩ .clear = some d →
        (¬ UsesClosed ⟨∅, 0, []⟩ firstOfThree d ↔
          ¬ FirstFails threeResolver [104] 80 sockStream ⟨[.ok (.prefer 3)], .ok ()⟩) :=
  openInetSocket_delivers_iff .linux ⟨∅, 0, []⟩ threeResolver [104] 80 sockStream false
    ⟨[.ok (.prefer 3)], .ok ()⟩ firstOfThree rfl

/-- The first address fails and the second works: the descriptor 3 is closed and an error
is reported, and `tcp::open` connects and returns it. -/
theorem not_delivers_second :
    ∃ c d, openInetSocket .linux ⟨∅, 0, []⟩ threeResolver [104] 80 sockStream false
        ⟨[.error 97, .ok (.prefer 3)], .ok ()⟩ .clear = some c ∧
      c.ec.isSet = true ∧ c.value.1 = 3 ∧ c.os.opened = ∅ ∧
      ¬ Xor (Delivered ⟨∅, 0, []⟩ c) (Refused ⟨∅, 0, []⟩ c) ∧
      Tcp.open_ .linux ⟨∅, 0, []⟩ threeResolver [104] 80 false
        ⟨[.error 97, .ok (.prefer 3)], .ok ()⟩ {} .clear = some d ∧
      d.value.fd = 3 ∧ UsesClosed ⟨∅, 0, []⟩ c d := by
  refine ⟨_, _, rfl, rfl, rfl, rfl, ?_, rfl, rfl, 3, ⟨true, 0, ?_⟩, .inl rfl⟩
  · rintro (⟨h, -⟩ | ⟨h, -⟩)
    · exact absurd h.ec (by decide)
    · exact absurd h.fd (by decide)
  · decide

end PfsIo
