import PfsIo.Inet.Descriptors

/-!
# The mode of an Internet socket

Two runs of `open_inet_socket` in one environment, without and with the flag
`nonblocking`. The flag is put into the integer that is the type of the socket for a
literal address and only a hint for a name to resolve: there the types that the resolver
delivers take its place.

## Main results

* `resultAddr_of_literal` — the entry of a literal address has the type asked for.
* `nonblocking_agrees_iff` — when the two runs differ in the mode alone.
-/

namespace PfsIo

/-- The entries that `getaddrinfo` delivers have plain types. -/
def PlainEntries (res : Resolver) : Prop :=
  ∀ name hints addrs, res.getaddrinfo name hints = .ok addrs →
    ∀ entry ∈ addrs.1, entry.socktype &&& sockNonblock = 0

/-- The name is a numeric address. -/
def IsLiteral (res : Resolver) (servername : Bytes) : Prop :=
  (res.pton4 (cStr servername)).isSome ∨ (res.pton6 (cStr servername)).isSome

/-- When the call without the flag succeeds, the one with it succeeds in the same
environment, with the same address and a socket of the base type with the flag. -/
def NonblockingAgrees (plat : Platform) (os : Os) (res : Resolver) (servername : Bytes)
    (port : UInt16) (baseSocktype : Nat) (r : InetReplies) (ec : ErrorCode) : Prop :=
  ∀ c, openInetSocket plat os res servername port baseSocktype false r ec = some c →
    c.ec.isSet = false →
    ∃ c', openInetSocket plat os res servername port baseSocktype true r ec = some c' ∧
      c'.ec.isSet = false ∧ c'.value.2 = c.value.2 ∧
      ∀ family socktype protocol rc,
        .socket family socktype protocol rc ∈ callsSince os c'.os →
        socktype = baseSocktype ||| sockNonblock

variable {plat : Platform} {os : Os} {res : Resolver} {servername : Bytes} {port : UInt16}
  {baseSocktype socktype : Nat} {r : InetReplies} {ec : ErrorCode} {addrs : AddrList} {a : Alloc}
  {rest : List FdReply}

theorem resultAddr_of_literal (port : UInt16) (h : IsLiteral res servername) :
    ∃ family addr, ∀ socktype, resultAddr res servername port socktype =
      some ⟨[⟨family, socktype, 0, addr⟩], List.cons_ne_nil _ _⟩ := by
  cases h4 : res.pton4 (cStr servername) with
  | some addr => exact ⟨afInet, sockaddrIn port addr, fun socktype => by simp only [resultAddr, h4]⟩
  | none =>
    obtain ⟨addr, h6⟩ := Option.isSome_iff_exists.mp (h.resolve_left (by simp [h4]))
    exact ⟨afInet6, sockaddrIn6 port addr, fun socktype => by simp only [resultAddr, h4, h6]⟩

theorem resultAddr_of_name (h : ¬ IsLiteral res servername) :
    resultAddr res servername port socktype =
      (res.getaddrinfo (cStr servername) ⟨aiV4mapped, afUnspec, socktype⟩).toOption := by
  obtain ⟨h4, h6⟩ := not_or.mp h
  simp only [Option.not_isSome_iff_eq_none] at h4 h6
  simp only [resultAddr, h4, h6]

/-- What is returned when the first attempt succeeds, with a clear error code on entry. -/
def firstResult (os : Os) (port : UInt16) (addrs : AddrList) (ec : ErrorCode) (a : Alloc) :
    Ret (Int × Bytes) :=
  ⟨(a.pick os.opened, setSinPort (addrs.entry addrs.first).addr port), ec,
    (os.newFd (AddressLoop.socketCall addrs addrs.first) (.ok a)).os⟩

theorem openInetSocket_first (nonblocking : Bool) (hec : ec.isSet = false)
    (hres : resultAddr res servername port (inetSockType baseSocktype nonblocking) = some addrs)
    (hsocket : r.socket = .ok a :: rest) :
    openInetSocket plat os res servername port baseSocktype nonblocking r ec =
      some (firstResult os port addrs ec a) := by
  rw [openInetSocket_of_ok hres hsocket, inetResult_of_clear r.close
    (s := AddressLoop.selected port (.start addrs ec os) addrs.first a) (a.nonneg _) hec]
  rfl

theorem callsSince_firstResult :
    callsSince os (firstResult os port addrs ec a).os =
      [AddressLoop.socketCall addrs addrs.first (a.pick os.opened)] :=
  callsSince_of_append (Os.log_newFd os _ _)

/-- A call that ends with a clear error code had one on entry, and its first attempt has
succeeded. -/
theorem first_of_clear {nonblocking : Bool} {c : Ret (Int × Bytes)}
    (hc : openInetSocket plat os res servername port baseSocktype nonblocking r ec = some c)
    (hclear : c.ec.isSet = false) :
    ec.isSet = false ∧ ∃ addrs a rest,
      resultAddr res servername port (inetSockType baseSocktype nonblocking) = some addrs ∧
        r.socket = .ok a :: rest ∧ c = firstResult os port addrs ec a := by
  by_cases hworks : FirstWorks res servername port (inetSockType baseSocktype nonblocking) r
  · obtain ⟨addrs, hres, a, rest, hsocket⟩ := hworks
    have hec : ec.isSet = false := by
      rw [openInetSocket_of_ok hres hsocket, Option.some.injEq] at hc
      rwa [← hc, inetResult_ec] at hclear
    rw [openInetSocket_first nonblocking hec hres hsocket, Option.some.injEq] at hc
    exact ⟨hec, addrs, a, rest, hres, hsocket, hc.symm⟩
  · exact absurd (openInetSocket_isSet hworks hc) (by simp [hclear])

/-- The bit of the flag is in no plain type. -/
theorem ne_of_plain (h : socktype &&& sockNonblock = 0) (base : Nat) :
    socktype ≠ base ||| sockNonblock := by
  rintro rfl
  rw [Nat.and_or_distrib_right, Nat.and_self, Nat.or_eq_zero_iff] at h
  exact absurd h.2 (by decide)

/-- The two runs differ in the mode alone exactly when the name is a numeric address, or the
run without the flag does not succeed. -/
theorem nonblocking_agrees_iff (plat : Platform) (os : Os) (res : Resolver) (servername : Bytes)
    (port : UInt16) (baseSocktype : Nat) (r : InetReplies) (ec : ErrorCode)
    (hplain : PlainEntries res) :
    NonblockingAgrees plat os res servername port baseSocktype r ec ↔
      IsLiteral res servername ∨
        ¬ (FirstWorks res servername port baseSocktype r ∧ ec.isSet = false) := by
  constructor
  · intro hagrees
    by_contra hnot
    simp only [not_or, not_not] at hnot
    obtain ⟨hname, ⟨addrs, hres, a, rest, hsocket⟩, hec⟩ := hnot
    obtain ⟨c', hc', hclear, -, htypes⟩ := hagrees _
      (openInetSocket_first false hec hres hsocket) hec
    obtain ⟨-, addrs', a', rest', hres', -, rfl⟩ := first_of_clear hc' hclear
    rw [callsSince_firstResult] at htypes
    have htype := htypes _ _ _ _ (List.mem_singleton.mpr rfl)
    rw [resultAddr_of_name hname] at hres'
    cases hget : res.getaddrinfo (cStr servername)
        ⟨aiV4mapped, afUnspec, inetSockType baseSocktype true⟩ with
    | error code => simp [hget, Except.toOption] at hres'
    | ok list =>
      obtain rfl : list = addrs' := by simpa [hget, Except.toOption] using hres'
      exact ne_of_plain (hplain _ _ _ hget _ (List.get_mem _ _)) baseSocktype htype
  · intro hcond c hc hclear
    obtain ⟨hec, addrs, a, rest, hres, hsocket, rfl⟩ := first_of_clear hc hclear
    have hliteral := hcond.resolve_right (not_not_intro ⟨⟨addrs, hres, a, rest, hsocket⟩, hec⟩)
    obtain ⟨family, addr, hentry⟩ := resultAddr_of_literal port hliteral
    obtain rfl := Option.some.inj ((hentry _).symm.trans hres)
    refine ⟨_, openInetSocket_first true hec (hentry _) hsocket, hec, rfl, ?_⟩
    intro family' socktype protocol rc hmem
    rw [callsSince_firstResult, List.mem_singleton] at hmem
    exact (Call.socket.inj hmem).2.1

/-- A resolver that refuses hints which are not plain types. -/
def strictResolver : Resolver where
  pton4 := threeResolver.pton4
  pton6 := threeResolver.pton6
  getaddrinfo _ hints :=
    if hints.socktype &&& sockNonblock = 0 then .ok AddressLoop.threeAddrs else .error (-7)

theorem plainEntries_strict : PlainEntries strictResolver := by
  intro name hints addrs h
  simp only [strictResolver] at h
  split at h
  · obtain rfl := Except.ok.inj h
    decide
  · cases h

theorem nonblocking_agrees_dotted :
    NonblockingAgrees .linux ⟨∅, 0, []⟩ strictResolver dotted 80 sockStream
      ⟨[.ok (.prefer 3)], .ok ()⟩ .clear :=
  (nonblocking_agrees_iff .linux ⟨∅, 0, []⟩ strictResolver dotted 80 sockStream
    ⟨[.ok (.prefer 3)], .ok ()⟩ .clear plainEntries_strict).mpr (.inl (.inl rfl))

/-- A name that the resolver knows: without the flag there is a socket, with it the host is
not found. A resolver that overlooks the flag gives a socket that blocks. -/
theorem not_nonblocking_agrees_name :
    (∃ c c', openInetSocket .linux ⟨∅, 0, []⟩ strictResolver [104] 80 sockStream false
        ⟨[.ok (.prefer 3)], .ok ()⟩ .clear = some c ∧ c.ec.isSet = false ∧ c.value.1 = 3 ∧
      openInetSocket .linux ⟨∅, 0, []⟩ strictResolver [104] 80 sockStream true
        ⟨[.ok (.prefer 3)], .ok ()⟩ .clear = some c' ∧ c'.ec = makeErrorCode .hostNotFound) ∧
    (∃ c', openInetSocket .linux ⟨∅, 0, []⟩ threeResolver [104] 80 sockStream true
        ⟨[.ok (.prefer 3)], .ok ()⟩ .clear = some c' ∧
      callsSince ⟨∅, 0, []⟩ c'.os = [.socket afInet6 sockStream 6 3]) ∧
    ¬ NonblockingAgrees .linux ⟨∅, 0, []⟩ strictResolver [104] 80 sockStream
      ⟨[.ok (.prefer 3)], .ok ()⟩ .clear := by
  refine ⟨⟨_, _, rfl, rfl, rfl, rfl, rfl⟩, ⟨_, rfl, rfl⟩, ?_⟩
  intro hagrees
  obtain ⟨c', hc', hclear, -⟩ := hagrees _ rfl rfl
  obtain rfl := Option.some.inj hc'
  exact absurd hclear (by decide)

end PfsIo
