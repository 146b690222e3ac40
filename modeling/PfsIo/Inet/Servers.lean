import PfsIo.Inet.Descriptors

/-!
# Opening servers

Whether a server that is reported open is one, and whether one that could not be set up is
closed. `tcp::open_server` and `udp::open_server` go on to the end when `setsockopt` fails
and say nothing; `local::open_server` does not clean up the descriptor 0.

## Main results

* `openInetSocket_cases_log` — the calls that `open_inet_socket` has made.
* `openServer_reports_iff` — when the three functions report what they have done.
-/

namespace PfsIo

open Library

/-- The descriptor was made by a call of `::socket` between two states of the kernel. -/
def Made (before after : Os) (fd : Int) : Prop :=
  0 ≤ fd ∧ ∃ family socktype protocol, .socket family socktype protocol fd ∈ callsSince before after

theorem not_made_self (os : Os) (fd : Int) : ¬ Made os os fd := by
  rintro ⟨-, family, socktype, protocol, hmem⟩
  simp [callsSince] at hmem

theorem not_made_of_error (os : Os) (family socktype protocol : Nat) (e : ℕ+) (fd : Int) :
    ¬ Made os (os.newFd (.socket family socktype protocol) (.error e)).os fd := by
  rintro ⟨hfd, family', socktype', protocol', hmem⟩
  rw [callsSince_of_append (Os.log_newFd os _ _)] at hmem
  simp only [Os.newFd_error, List.mem_singleton, Call.socket.injEq] at hmem
  omega

/-- The handle is a new open descriptor on which the steps have succeeded. -/
structure Serves (os : Os) (ready : Int → List Call → Prop) (d : Ret DeviceHandle) : Prop where
  nonneg : 0 ≤ d.value.fd
  fresh : d.value.fd ∉ os.opened
  opened : d.value.fd ∈ d.os.opened
  ready : ready d.value.fd (callsSince os d.os)

/-- An error, a closed handle, and no new descriptor that was not closed, or closed twice. -/
structure GivenUp (os : Os) (d : Ret DeviceHandle) : Prop where
  ec : d.ec.isSet = true
  handle : d.value = ⟨-1⟩
  once : ∀ fd, Made os d.os fd → (callsSince os d.os).countP (Call.closes fd) = 1

/-- The error code tells whether the server is set up, and one that is not is closed. -/
def Reports (os : Os) (ready : Int → List Call → Prop) (d : Ret DeviceHandle) : Prop :=
  (d.ec.isSet = false ↔ Serves os ready d) ∧ (¬ Serves os ready d → GivenUp os d)

section Reports

variable {os : Os} {ready : Int → List Call → Prop} {d : Ret DeviceHandle}

theorem Serves.reports (h : Serves os ready d) (hec : d.ec.isSet = false) : Reports os ready d :=
  ⟨iff_of_true hec h, fun hno => absurd h hno⟩

theorem GivenUp.reports (h : GivenUp os d) : Reports os ready d := by
  have hno : ¬ Serves os ready d := fun hs => absurd hs.nonneg (by simp [h.handle])
  exact ⟨iff_of_false (by simp [h.ec]) hno, fun _ => h⟩

theorem not_reports_of_isSet (hec : d.ec.isSet = true) (h : ¬ GivenUp os d) :
    ¬ Reports os ready d := by
  rintro ⟨hiff, hgiven⟩
  refine h (hgiven fun hs => ?_)
  exact absurd hec (by simp [hiff.mpr hs])

end Reports

/-- An address that the server name and the port stand for. -/
def Requested (res : Resolver) (servername : Bytes) (port : UInt16) (socktype : Nat)
    (addr : Bytes) : Prop :=
  ∃ addrs, resultAddr res servername port socktype = some addrs ∧
    ∃ p, addr = setSinPort (addrs.entry p).addr port

/-- A descriptor was opened at the first attempt. -/
structure OpenedFirst (os : Os) (c : Ret (Int × Bytes)) : Prop where
  nonneg : 0 ≤ c.value.1
  fresh : c.value.1 ∉ os.opened
  opened : c.os.opened = insert c.value.1 os.opened
  log : ∃ family socktype protocol,
    c.os.log = os.log ++ [.socket family socktype protocol c.value.1]

/-- No descriptor was opened. -/
structure NotOpened (os : Os) (c : Ret (Int × Bytes)) : Prop where
  ec : c.ec.isSet = true
  fd : c.value.1 = -1
  none : ∀ fd, ¬ Made os c.os fd

/-- A descriptor was opened, closed again and returned. -/
structure Abandoned (os : Os) (c : Ret (Int × Bytes)) : Prop where
  ec : c.ec.isSet = true
  nonneg : 0 ≤ c.value.1
  log : ∃ before family socktype protocol wasOpen rc,
    c.os.log = os.log ++ (before ++
      [.socket family socktype protocol c.value.1, .close c.value.1 wasOpen rc])

/-- The calls that the function has made, with a clear error code on entry. -/
theorem openInetSocket_cases_log {plat : Platform} {os : Os} {res : Resolver}
    {servername : Bytes} {port : UInt16} {baseSocktype : Nat} {nonblocking : Bool}
    {r : InetReplies} {ec : ErrorCode} {c : Ret (Int × Bytes)} (hec : ec.isSet = false)
    (hc : openInetSocket plat os res servername port baseSocktype nonblocking r ec = some c) :
    let socktype := inetSockType baseSocktype nonblocking
    (FirstWorks res servername port socktype r ∧ ¬ FirstFails res servername port socktype r ∧
        c.ec.isSet = false ∧ OpenedFirst os c ∧
        Requested res servername port socktype c.value.2) ∨
      (¬ FirstWorks res servername port socktype r ∧
        ¬ FirstFails res servername port socktype r ∧ NotOpened os c) ∨
      (FirstFails res servername port socktype r ∧ Abandoned os c) := by
  intro socktype
  cases openInetSocket_exit hc with
  | unresolved hres =>
    obtain ⟨hnotWorks, hnotFails⟩ := not_first_of_unresolved (r := r) hres
    exact .inr (.inl ⟨hnotWorks, hnotFails, rfl, rfl, not_made_self os⟩)
  | first addrs a rest hres hsocket =>
    rw [inetResult_of_clear r.close
      (s := AddressLoop.selected port (.start addrs ec os) addrs.first a) (a.nonneg _) hec]
    exact .inl ⟨⟨addrs, hres, a, rest, hsocket⟩, not_firstFails_of_ok hsocket, hec,
      ⟨a.nonneg _, a.fresh _, rfl, _, _, _, rfl⟩, addrs, hres, addrs.first, rfl⟩
  | single addrs e rest hres hsocket hlen =>
    refine .inr (.inl ⟨not_firstWorks_of_error hsocket, not_firstFails_of_single hres hlen, ?_⟩)
    rw [inetResult_of_neg r.close (s := AddressLoop.failed plat (.start addrs .clear os)
      addrs.first e) (Int.negSucc_lt_zero 0)]
    exact ⟨isSet_getLastSystemError_pnat plat e, rfl, not_made_of_error os _ _ _ e⟩
  | retried addrs e rest rest' t hres hsocket hlen hrun =>
    have hretry := retrying_first plat os hlen e
    have hreopened := AddressLoop.run_retry hretry hrun
    obtain ⟨before, p, hlog⟩ := AddressLoop.run_retry_log hretry hrun
    refine .inr (.inr ⟨⟨addrs, hres, hlen, e, rest, hsocket⟩, ?_⟩)
    rw [inetResult_of_isSet r.close hreopened.fd hreopened.ec]
    refine ⟨hreopened.ec, hreopened.fd, before, (addrs.entry p).family,
      (addrs.entry p).socktype, (addrs.entry p).protocol, decide (t.fd ∈ t.os.opened),
      (t.os.close t.fd r.close).rc, ?_⟩
    rw [Os.log_close, hlog]
    simp [AddressLoop.socketCall]

section Outcome

variable {os : Os} {option done : Prop} {steps : List Call} {ready : Int → List Call → Prop}
  {c : Ret (Int × Bytes)} {d : Ret DeviceHandle}

/-- A descriptor on which a later step has failed is closed, once. -/
theorem OpenedFirst.givenUp_of_undone (h : OpenedFirst os c)
    (hend : ServerEnd option done steps c d) (hset : option) (hundone : ¬ done) :
    GivenUp os d := by
  obtain ⟨family, socktype, protocol, hlog⟩ := h.log
  cases hend with
  | unset hunset _ _ _ => exact absurd hset hunset
  | ready _ hdone _ _ _ _ => exact absurd hdone hundone
  | closed tried wasOpen rc _ _ hvalue hisSet hcloses hsockets hlog' =>
    refine ⟨hisSet, hvalue, ?_⟩
    rintro fd ⟨-, family', socktype', protocol', hmem⟩
    rw [callsSince_of_appends hlog hlog'] at hmem ⊢
    have hfd : fd = c.value.1 := by
      simp only [List.mem_append, List.mem_singleton, hsockets, Call.socket.injEq, reduceCtorEq,
        or_false] at hmem
      exact hmem.2.2.2
    have htried : tried.countP (Call.closes fd) = 0 := by
      rw [List.countP_eq_zero]
      intro call hcall
      simp [hcloses call hcall fd]
    subst hfd
    simp [List.countP_append, htried]

/-- A descriptor on which all steps have succeeded serves. -/
theorem OpenedFirst.serves_of_done (h : OpenedFirst os c) (hend : ServerEnd option done steps c d)
    (hset : option) (hdone : done)
    (hready : ∀ calls, steps ⊆ calls → ready c.value.1 calls) : Serves os ready d := by
  obtain ⟨family, socktype, protocol, hlog⟩ := h.log
  cases hend with
  | unset hunset _ _ _ => exact absurd hset hunset
  | closed _ _ _ _ hundone _ _ _ _ _ => exact absurd hdone hundone
  | ready _ _ hvalue _ hopened hlog' =>
    refine ⟨?_, ?_, ?_, ?_⟩
    · rw [hvalue]
      exact h.nonneg
    · rw [hvalue]
      exact h.fresh
    · rw [hvalue, hopened, h.opened]
      exact Finset.mem_insert_self _ _
    · rw [hvalue, callsSince_of_appends hlog hlog']
      exact hready _ (List.subset_append_right _ _)

/-- With a descriptor, the function reports what it has done unless `setsockopt` fails. -/
theorem OpenedFirst.reports_iff (h : OpenedFirst os c) (hec : c.ec.isSet = false)
    (hend : ServerEnd option done steps c d)
    (hready : ∀ calls, steps ⊆ calls → ready c.value.1 calls)
    (hoption : ∀ fd calls, ready fd calls → .setReuseAddr fd 0 ∈ calls) :
    Reports os ready d ↔ option := by
  by_cases hset : option
  · refine iff_of_true ?_ hset
    by_cases hdone : done
    · refine (h.serves_of_done hend hset hdone hready).reports ?_
      rw [(hend.kept fun _ => hdone).2, hec]
    · exact (h.givenUp_of_undone hend hset hdone).reports
  · refine iff_of_false ?_ hset
    rintro ⟨hiff, -⟩
    obtain ⟨family, socktype, protocol, hlog⟩ := h.log
    have hclear : d.ec.isSet = false := by
      rw [(hend.kept fun h => absurd h hset).2, hec]
    have hmem := hoption _ _ (hiff.mp hclear).ready
    rw [callsSince_of_appends hlog (hend.log_of_unset hset)] at hmem
    simp at hmem

theorem NotOpened.reports (h : NotOpened os c) (hd : d = ⟨⟨-1⟩, c.ec, c.os⟩) :
    Reports os ready d := by
  subst hd
  exact GivenUp.reports ⟨h.ec, rfl, fun fd hfd => absurd hfd (h.none fd)⟩

/-- A descriptor that was closed before is returned or closed again. -/
theorem Abandoned.not_reports (h : Abandoned os c) (hend : ServerEnd option done steps c d) :
    ¬ Reports os ready d := by
  obtain ⟨before, family, socktype, protocol, wasOpen, rc, hlog⟩ := h.log
  have hfd : (⟨c.value.1⟩ : DeviceHandle) ≠ ⟨-1⟩ := by
    intro heq
    have hnonneg := h.nonneg
    have hneg := DeviceHandle.mk.inj heq
    omega
  cases hend with
  | unset _ hvalue hsame _ =>
    exact not_reports_of_isSet (by rw [hsame, h.ec]) fun hgiven => hfd (hvalue ▸ hgiven.handle)
  | ready _ _ hvalue hsame _ _ =>
    exact not_reports_of_isSet (by rw [hsame, h.ec]) fun hgiven => hfd (hvalue ▸ hgiven.handle)
  | closed tried wasOpen' rc' _ _ _ hisSet _ _ hlog' =>
    refine not_reports_of_isSet hisSet fun hgiven => ?_
    have hcalls := callsSince_of_appends hlog hlog'
    have honce := hgiven.once c.value.1 ⟨h.nonneg, family, socktype, protocol, by simp [hcalls]⟩
    simp [hcalls, List.countP_append] at honce
    omega

/-- A function that goes on after `open_inet_socket` reports what it has done exactly when a
first attempt does not fail in vain, and `setsockopt` succeeds after one that works. -/
theorem reports_iff_of_inet {works fails requested : Prop}
    (hinet : (works ∧ ¬ fails ∧ c.ec.isSet = false ∧ OpenedFirst os c ∧ requested) ∨
      (¬ works ∧ ¬ fails ∧ NotOpened os c) ∨ (fails ∧ Abandoned os c))
    (hneg : c.value.1 < 0 → d = ⟨⟨-1⟩, c.ec, c.os⟩)
    (hend : 0 ≤ c.value.1 → ServerEnd option done steps c d)
    (hready : requested → ∀ calls, steps ⊆ calls → ready c.value.1 calls)
    (hoption : ∀ fd calls, ready fd calls → .setReuseAddr fd 0 ∈ calls) :
    Reports os ready d ↔ ¬ fails ∧ (works → option) := by
  rcases hinet with ⟨hworks, hfails, hec, hopened, hrequested⟩ | ⟨hworks, hfails, hnone⟩ |
    ⟨hfails, habandoned⟩
  · rw [hopened.reports_iff hec (hend hopened.nonneg) (hready hrequested) hoption]
    simp [hworks, hfails]
  · exact iff_of_true (hnone.reports (hneg (by rw [hnone.fd]; omega)))
      ⟨hfails, fun h => absurd h hworks⟩
  · exact iff_of_false (habandoned.not_reports (hend habandoned.nonneg)) fun h => h.1 hfails

end Outcome

/-- The steps of `local::open_server` have succeeded. -/
def Local.serverReady (name : Bytes) (n fd : Int) (calls : List Call) : Prop :=
  .bind fd (sockaddrUn name) 0 ∈ calls ∧ .listen fd n 0 ∈ calls

/-- The steps of `tcp::open_server` have succeeded. -/
def Tcp.serverReady (res : Resolver) (servername : Bytes) (port : UInt16) (socktype : Nat)
    (n fd : Int) (calls : List Call) : Prop :=
  .setReuseAddr fd 0 ∈ calls ∧
    (∃ addr, Requested res servername port socktype addr ∧ .bind fd addr 0 ∈ calls) ∧
    .listen fd n 0 ∈ calls

/-- The steps of `udp::open_server` have succeeded. -/
def Udp.serverReady (res : Resolver) (servername : Bytes) (port : UInt16) (socktype : Nat)
    (fd : Int) (calls : List Call) : Prop :=
  .setReuseAddr fd 0 ∈ calls ∧
    ∃ addr, Requested res servername port socktype addr ∧ .bind fd addr 0 ∈ calls

theorem Local.socket_notMem_serverCalls (name : Bytes) (n : Int) (r : Local.ServerReplies)
    (family socktype protocol : Nat) (fd rc : Int) :
    .socket family socktype protocol rc ∉ Local.serverCalls name n r fd := by
  unfold Local.serverCalls
  split <;> simp

theorem Local.countP_closes_serverCalls (name : Bytes) (n : Int) (r : Local.ServerReplies)
    (fd fd' : Int) : (Local.serverCalls name n r fd).countP (Call.closes fd') = 0 := by
  unfold Local.serverCalls
  split <;> rfl

section Servers

variable {plat : Platform} {os : Os} {ec : ErrorCode}

section Local

variable {name : Bytes} {nonblocking : Bool} {n : Int} {r : Local.ServerReplies} {a : Alloc}

/-- Once all steps have succeeded the descriptor serves. -/
theorem Local.serves_of_done (hbind : r.bind.isOk = true) (hlisten : r.listen.isOk = true) :
    Serves os (Local.serverReady name n)
      ⟨⟨a.pick os.opened⟩, ec, Local.serverOs os name nonblocking n r a⟩ := by
  obtain ⟨u, hbind⟩ := isOk_iff.mp hbind
  obtain ⟨v, hlisten⟩ := isOk_iff.mp hlisten
  refine ⟨a.nonneg _, a.fresh _, ?_, ?_⟩
  · rw [Local.opened_serverOs]
    exact Finset.mem_insert_self _ _
  · rw [callsSince_of_append (Local.log_serverOs os nonblocking n a)]
    simp [Local.serverReady, Local.serverCalls, hbind, hlisten, Local.rcOf]

/-- The clean-up closes the one descriptor that was made, once, unless that is 0. -/
theorem Local.givenUp_cleanUp (hec : ec.isSet = true) (hpos : 0 < a.pick os.opened) :
    GivenUp os (Local.cleanUp (a.pick os.opened) ec (Local.serverOs os name nonblocking n r a)
      r.close) := by
  rw [Local.cleanUp_of_isSet _ _ _ hec hpos]
  refine ⟨hec, rfl, ?_⟩
  rintro fd ⟨-, family, socktype, protocol, hmem⟩
  rw [callsSince_of_appends (Local.log_serverOs os nonblocking n a) (Os.log_close _ _ _)] at hmem ⊢
  have hsame : family = afLocal ∧ socktype = Local.sockType nonblocking ∧ protocol = 0 ∧
      fd = a.pick os.opened := by
    simpa [Local.socketCall, Local.socket_notMem_serverCalls] using hmem
  obtain ⟨-, -, -, rfl⟩ := hsame
  simp [List.countP_append, Local.socketCall, Local.countP_closes_serverCalls]

end Local

theorem Local.reports_iff (name : Bytes) (nonblocking : Bool) (n : Int)
    (r : Local.ServerReplies) (hec : ec.isSet = false) :
    Reports os (Local.serverReady name n) (Local.openServer plat os name nonblocking n r ec) ↔
      ¬ (Local.Fits name ∧ (∃ a, r.socket = .ok a ∧ a.pick os.opened = 0) ∧
        ¬ (r.bind.isOk = true ∧ r.listen.isOk = true)) := by
  by_cases hfit : Local.Fits name
  · cases hsocket : r.socket with
    | error e =>
      rw [Local.openServer_of_socket_error plat os nonblocking n ec hfit hsocket]
      exact iff_of_true (GivenUp.reports ⟨isSet_getLastSystemError_pnat plat e, rfl,
        fun fd hfd => absurd hfd (not_made_of_error os _ _ _ e fd)⟩) (by simp)
    | ok a =>
      rw [Local.openServer_of_socket plat os nonblocking n ec hfit hsocket]
      simp only [hfit, true_and, Except.ok.injEq, exists_eq_left']
      by_cases hdone : r.bind.isOk = true ∧ r.listen.isOk = true
      · rw [Local.serverCode_of_done plat ec hdone.1 hdone.2, Local.cleanUp_of_clear _ _ _ _ hec]
        exact iff_of_true ((Local.serves_of_done hdone.1 hdone.2).reports hec) (by simp [hdone])
      · have hcode : (Local.serverCode plat r ec).isSet = true := by
          simp only [not_and_or, Bool.not_eq_true] at hdone
          exact (Local.isSet_serverCode plat ec).mpr (.inr hdone)
        simp only [hdone, not_false_eq_true, and_true]
        rcases (a.nonneg os.opened).eq_or_lt with hzero | hpos
        · rw [← hzero, Local.cleanUp_zero]
          refine iff_of_false (not_reports_of_isSet hcode fun hgiven => ?_) (by simp)
          exact absurd hgiven.handle (by simp)
        · exact iff_of_true (Local.givenUp_cleanUp hcode hpos).reports (by omega)
  · rw [Local.openServer_of_long plat os nonblocking n ec hfit]
    exact iff_of_true (GivenUp.reports ⟨rfl, rfl, fun fd hfd => absurd hfd (not_made_self os fd)⟩)
      fun h => hfit h.1

variable {res : Resolver} {servername : Bytes} {port : UInt16} {nonblocking : Bool}
  {inet : InetReplies} {r : Tcp.ServerReplies} {d : Ret DeviceHandle}

theorem Tcp.reports_iff {n : Int} (hec : ec.isSet = false)
    (hd : Tcp.openServer plat os res servername port nonblocking n inet r ec = some d) :
    let socktype := inetSockType sockStream nonblocking
    Reports os (Tcp.serverReady res servername port socktype n) d ↔
      ¬ FirstFails res servername port socktype inet ∧
        (FirstWorks res servername port socktype inet → r.setsockopt.isOk = true) := by
  obtain ⟨c, hc, rfl⟩ := Option.map_eq_some_iff.mp hd
  refine reports_iff_of_inet (openInetSocket_cases_log hec hc)
    (fun h => Tcp.listenAt_of_neg h n r) (fun h => Tcp.listenAt_end h n r) ?_
    (fun _ _ h => h.1)
  intro hrequested calls hsteps
  simp only [Tcp.serverSteps, List.cons_subset] at hsteps
  exact ⟨hsteps.1, ⟨c.value.2, hrequested, hsteps.2.1⟩, hsteps.2.2.1⟩

theorem Udp.reports_iff (hec : ec.isSet = false)
    (hd : Udp.openServer plat os res servername port nonblocking inet r ec = some d) :
    let socktype := inetSockType sockDgram nonblocking
    Reports os (Udp.serverReady res servername port socktype) d ↔
      ¬ FirstFails res servername port socktype inet ∧
        (FirstWorks res servername port socktype inet → r.setsockopt.isOk = true) := by
  obtain ⟨c, hc, rfl⟩ := Option.map_eq_some_iff.mp hd
  refine reports_iff_of_inet (openInetSocket_cases_log hec hc)
    (fun h => Udp.bindTo_of_neg h r) (fun h => Udp.bindTo_end h r) ?_ (fun _ _ h => h.1)
  intro hrequested calls hsteps
  simp only [Udp.serverSteps, List.cons_subset] at hsteps
  exact ⟨hsteps.1, c.value.2, hrequested, hsteps.2.1⟩

end Servers

/-- With a clear error code on entry, a local server is reported as it is exactly when it is
not one on descriptor 0 that cannot be bound or listen; a TCP or UDP server exactly when no
first address of several fails, and `setsockopt` does not fail after a first address works. -/
theorem openServer_reports_iff (plat : Platform) (os : Os) (nonblocking : Bool) (n : Int)
    (ec : ErrorCode) (hec : ec.isSet = false) :
    (∀ name r,
      Reports os (Local.serverReady name n) (Local.openServer plat os name nonblocking n r ec) ↔
        ¬ (Local.Fits name ∧ (∃ a, r.socket = .ok a ∧ a.pick os.opened = 0) ∧
          ¬ (r.bind.isOk = true ∧ r.listen.isOk = true))) ∧
    (∀ res servername port inet r d,
      Tcp.openServer plat os res servername port nonblocking n inet r ec = some d →
        (Reports os
            (Tcp.serverReady res servername port (inetSockType sockStream nonblocking) n) d ↔
          ¬ FirstFails res servername port (inetSockType sockStream nonblocking) inet ∧
            (FirstWorks res servername port (inetSockType sockStream nonblocking) inet →
              r.setsockopt.isOk = true))) ∧
    ∀ res servername port inet r d,
      Udp.openServer plat os res servername port nonblocking inet r ec = some d →
        (Reports os
            (Udp.serverReady res servername port (inetSockType sockDgram nonblocking)) d ↔
          ¬ FirstFails res servername port (inetSockType sockDgram nonblocking) inet ∧
            (FirstWorks res servername port (inetSockType sockDgram nonblocking) inet →
              r.setsockopt.isOk = true)) :=
  ⟨fun name r => Local.reports_iff name nonblocking n r hec,
    fun _ _ _ _ _ _ hd => Tcp.reports_iff hec hd,
    fun _ _ _ _ _ _ hd => Udp.reports_iff hec hd⟩

/-- Three servers on the descriptor 3, of which the second cannot be bound. -/
theorem openServer_reports_dotted :
    Reports ⟨∅, 0, []⟩ (Local.serverReady [33] 5) (Local.openServer .linux ⟨∅, 0, []⟩ [33] false 5
        ⟨.ok (.prefer 3), .ok (), .ok (), .ok (), .ok ()⟩ .clear) ∧
      (∃ d, Tcp.openServer .linux ⟨∅, 0, []⟩ threeResolver dotted 80 false 5
          ⟨[.ok (.prefer 3)], .ok ()⟩ ⟨.ok (), .error 98, .ok (), .ok ()⟩ .clear = some d ∧
        Reports ⟨∅, 0, []⟩ (Tcp.serverReady threeResolver dotted 80 sockStream 5) d) ∧
      ∃ d, Udp.openServer .linux ⟨∅, 0, []⟩ threeResolver dotted 80 false
          ⟨[.ok (.prefer 3)], .ok ()⟩ ⟨.ok (), .ok (), .ok (), .ok ()⟩ .clear = some d ∧
        Reports ⟨∅, 0, []⟩ (Udp.serverReady threeResolver dotted 80 sockDgram) d := by
  obtain ⟨hlocal, htcp, hudp⟩ := openServer_reports_iff .linux ⟨∅, 0, []⟩ false 5 .clear rfl
  refine ⟨(hlocal _ _).mpr (by simp),
    ⟨_, rfl, (htcp threeResolver dotted 80 ⟨[.ok (.prefer 3)], .ok ()⟩
      ⟨.ok (), .error 98, .ok (), .ok ()⟩ _ rfl).mpr ⟨?_, ?_⟩⟩,
    _, rfl, (hudp threeResolver dotted 80 ⟨[.ok (.prefer 3)], .ok ()⟩
      ⟨.ok (), .ok (), .ok (), .ok ()⟩ _ rfl).mpr ⟨?_, ?_⟩⟩
  · exact not_firstFails_of_ok rfl
  · exact fun _ => rfl
  · exact not_firstFails_of_ok rfl
  · exact fun _ => rfl

/-- `setsockopt` fails: the error code is clear and the server has an open descriptor, which
is not bound and does not listen. And a local server on descriptor 0 that cannot be bound is
returned open. -/
theorem not_openServer_reports :
    (∃ d, Udp.openServer .linux ⟨∅, 0, []⟩ threeResolver dotted 80 false
        ⟨[.ok (.prefer 3)], .ok ()⟩ ⟨.error 105, .ok (), .ok (), .ok ()⟩ .clear = some d ∧
      d.ec.isSet = false ∧ d.value.fd = 3 ∧ d.os.opened = {3} ∧
      callsSince ⟨∅, 0, []⟩ d.os = [.socket afInet sockDgram 0 3, .setReuseAddr 3 (-1)] ∧
      ¬ Reports ⟨∅, 0, []⟩ (Udp.serverReady threeResolver dotted 80 sockDgram) d) ∧
    ∃ d, Local.openServer .linux ⟨∅, 0, []⟩ [33] false 5
        ⟨.ok (.prefer 0), .ok (), .error 98, .ok (), .ok ()⟩ .clear = d ∧
      d.ec.isSet = true ∧ d.value.fd = 0 ∧ d.os.opened = {0} ∧
      ¬ Reports ⟨∅, 0, []⟩ (Local.serverReady [33] 5) d := by
  refine ⟨⟨_, rfl, rfl, rfl, rfl, rfl, ?_⟩, _, rfl, by decide, rfl, by decide, ?_⟩
  · rintro ⟨hiff, -⟩
    exact absurd (hiff.mp rfl).ready.1 (by decide)
  · refine not_reports_of_isSet (by decide) fun hgiven => ?_
    exact absurd hgiven.handle (by decide)

end PfsIo
