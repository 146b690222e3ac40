import PfsIo.Model.InetSocket

/-!
# The address loop of `open_inet_socket`

What one attempt does, what the loop does by the outcome of its first attempt, and what
follows for the function.

## Main results

* `AddressLoop.body_ok`, `AddressLoop.body_error` — one attempt.
* `AddressLoop.run_rule` — what holds when the loop ends.
* `openInetSocket_of_works` — the result when the first attempt succeeds.
* `openInetSocket_congr` — when it does not, the error code on entry plays no part.
-/

namespace PfsIo

open Library

namespace AddressLoop

variable {plat : Platform} {port : UInt16} {addrs : AddrList} {s : AddressState addrs}
  {t : AddressState addrs} {p : addrs.Ptr} {replies rest : List FdReply}

/-- The call of `::socket` for an entry. -/
def socketCall (addrs : AddrList) (p : addrs.Ptr) : Int → Call :=
  .socket (addrs.entry p).family (addrs.entry p).socktype (addrs.entry p).protocol

/-- After an attempt that succeeded. -/
def selected (port : UInt16) (s : AddressState addrs) (p : addrs.Ptr) (a : Alloc) :
    AddressState addrs :=
  { s with
    fd := a.pick s.os.opened
    serveraddr := setSinPort (addrs.entry p).addr port
    os := (s.os.newFd (socketCall addrs p) (.ok a)).os }

/-- After an attempt that failed: `p` is the entry after the first of the list. -/
def failed (plat : Platform) (s : AddressState addrs) (p : addrs.Ptr) (e : ℕ+) :
    AddressState addrs :=
  { s with
    p := addrs.aiNext addrs.first
    fd := -1
    ec := getLastSystemError plat e
    os := (s.os.newFd (socketCall addrs p) (.error e)).os }

theorem body_ok (hp : s.p = some p) (a : Alloc) :
    (addressLoop plat port addrs).body s (.ok a) = .leave (selected port s p a) := by
  have hfd : ¬ a.pick s.os.opened < 0 := Int.not_lt.mpr (a.nonneg _)
  simp [addressLoop, hp, addressBody, socketCall, selected, hfd]

theorem body_error (hp : s.p = some p) (e : ℕ+) :
    (addressLoop plat port addrs).body s (.error e) = .next (failed plat s p e) := by
  simp [addressLoop, hp, addressBody, socketCall, failed]

theorem guard_of_some (hp : s.p = some p) : (addressLoop plat port addrs).guard s = true := by
  simp [addressLoop, hp]

theorem guard_of_none (hp : s.p = none) : (addressLoop plat port addrs).guard s = false := by
  simp [addressLoop, hp]

/-- The second entry. -/
def second (addrs : AddrList) (h : 1 < addrs.1.length) : addrs.Ptr := ⟨1, h⟩

theorem aiNext_first (h : 1 < addrs.1.length) :
    addrs.aiNext addrs.first = some (second addrs h) := by
  simp [AddrList.aiNext, AddrList.first, second, h]

theorem aiNext_first_of_single (h : ¬ 1 < addrs.1.length) : addrs.aiNext addrs.first = none := by
  simpa [AddrList.aiNext, AddrList.first] using h

theorem run_ok (hp : s.p = some p) (a : Alloc) :
    (addressLoop plat port addrs).run s (.ok a :: replies) =
      some (selected port s p a, replies) :=
  Loop.run_cons_leave (guard_of_some hp) (body_ok hp a)

/-- With a single entry a failed attempt ends the loop. -/
theorem run_failed (hlen : ¬ 1 < addrs.1.length) (e : ℕ+) :
    (addressLoop plat port addrs).run (failed plat s p e) replies =
      some (failed plat s p e, replies) :=
  Loop.run_of_not_guard (guard_of_none (aiNext_first_of_single hlen))

/-- The rule for the loop: an invariant that a failed attempt keeps, and a postcondition
that the attempt that succeeds brings about, or the end of the list. -/
theorem run_rule (inv post : AddressState addrs → Prop)
    (next : ∀ s p e, inv s → s.p = some p → inv (failed plat s p e))
    (leave : ∀ s p a, inv s → s.p = some p → post (selected port s p a))
    (done : ∀ s, inv s → s.p = none → post s) (hs : inv s)
    (hrun : (addressLoop plat port addrs).run s replies = some (t, rest)) : post t := by
  refine Loop.run_rule inv post ?_ ?_ ?_ hs hrun
  · intro u reply v hu hg hb
    obtain ⟨p, hp⟩ := Option.isSome_iff_exists.mp hg
    cases reply with
    | ok a => exact absurd ((body_ok hp a).symm.trans hb) (by simp)
    | error e =>
      obtain rfl := Flow.next.inj ((body_error hp e).symm.trans hb)
      exact next u p e hu hp
  · intro u reply v hu hg hb
    obtain ⟨p, hp⟩ := Option.isSome_iff_exists.mp hg
    cases reply with
    | ok a =>
      obtain rfl := Flow.leave.inj ((body_ok hp a).symm.trans hb)
      exact leave u p a hu hp
    | error e => exact absurd ((body_error hp e).symm.trans hb) (by simp)
  · intro u hu hg
    exact done u hu (Option.isNone_iff_eq_none.mp (by simpa [addressLoop] using hg))

/-- An error code that is set stays set. -/
theorem run_isSet (h : s.ec.isSet = true)
    (hrun : (addressLoop plat port addrs).run s replies = some (t, rest)) :
    t.ec.isSet = true := by
  refine run_rule (fun s => s.ec.isSet = true) (fun t => t.ec.isSet = true) ?_ ?_ ?_ h hrun
  · intro u p e _ _
    exact isSet_getLastSystemError_pnat plat e
  · intro u p a hu _
    exact hu
  · intro u hu _
    exact hu

end AddressLoop

/-- The name has addresses, and `::socket` succeeds for the first of them. -/
def FirstWorks (res : Resolver) (servername : Bytes) (port : UInt16) (socktype : Nat)
    (r : InetReplies) : Prop :=
  ∃ addrs, resultAddr res servername port socktype = some addrs ∧
    ∃ a rest, r.socket = .ok a :: rest

section OpenInetSocket

variable {plat : Platform} {os : Os} {res : Resolver} {servername : Bytes} {port : UInt16}
  {baseSocktype : Nat} {nonblocking : Bool} {r : InetReplies} {addrs : AddrList}
  {replies : List FdReply}

theorem openInetSocket_of_nil
    (hres : resultAddr res servername port (inetSockType baseSocktype nonblocking) = some addrs)
    (hsocket : r.socket = []) (ec : ErrorCode) :
    openInetSocket plat os res servername port baseSocktype nonblocking r ec = none := by
  have hp : (AddressState.start addrs ec os).p = some addrs.first := rfl
  simp only [openInetSocket, hres, hsocket, Loop.run_nil_of_guard (AddressLoop.guard_of_some hp),
    Option.map_none]

theorem openInetSocket_of_ok {a : Alloc}
    (hres : resultAddr res servername port (inetSockType baseSocktype nonblocking) = some addrs)
    (hsocket : r.socket = .ok a :: replies) (ec : ErrorCode) :
    openInetSocket plat os res servername port baseSocktype nonblocking r ec =
      some (inetResult (AddressLoop.selected port (.start addrs ec os) addrs.first a) r.close) := by
  have hp : (AddressState.start addrs ec os).p = some addrs.first := rfl
  simp only [openInetSocket, hres, hsocket, AddressLoop.run_ok hp, Option.map_some]

/-- After a failed attempt the loop goes on, whatever the error code on entry was. -/
theorem openInetSocket_of_error {e : ℕ+}
    (hres : resultAddr res servername port (inetSockType baseSocktype nonblocking) = some addrs)
    (hsocket : r.socket = .error e :: replies) (ec : ErrorCode) :
    openInetSocket plat os res servername port baseSocktype nonblocking r ec =
      ((addressLoop plat port addrs).run
        (AddressLoop.failed plat (.start addrs .clear os) addrs.first e) replies).map
        fun l => inetResult l.1 r.close := by
  have hp : (AddressState.start addrs ec os).p = some addrs.first := rfl
  simp only [openInetSocket, hres, hsocket, Loop.run_cons_next (AddressLoop.guard_of_some hp)
    (AddressLoop.body_error hp e)]
  rfl

/-- The descriptor and the address do not depend on the error code on entry, which is
left as it is. -/
theorem openInetSocket_of_works (plat : Platform) (os : Os)
    (h : FirstWorks res servername port (inetSockType baseSocktype nonblocking) r) :
    ∃ fd addr, 0 ≤ fd ∧ ∀ ec, ∃ c,
      openInetSocket plat os res servername port baseSocktype nonblocking r ec = some c ∧
        c.value = (fd, addr) ∧ c.ec = ec := by
  obtain ⟨addrs, hres, a, rest, hsocket⟩ := h
  refine ⟨a.pick os.opened, setSinPort (addrs.entry addrs.first).addr port, a.nonneg _,
    fun ec => ⟨_, openInetSocket_of_ok hres hsocket ec, ?_, ?_⟩⟩
  · rw [inetResult_value]
    rfl
  · rw [inetResult_ec]
    rfl

/-- A failed attempt overwrites the error code. -/
theorem openInetSocket_congr
    (h : ¬ FirstWorks res servername port (inetSockType baseSocktype nonblocking) r)
    (ec ec' : ErrorCode) :
    openInetSocket plat os res servername port baseSocktype nonblocking r ec =
      openInetSocket plat os res servername port baseSocktype nonblocking r ec' := by
  cases hres : resultAddr res servername port (inetSockType baseSocktype nonblocking) with
  | none => simp only [openInetSocket, hres]
  | some addrs =>
    cases hsocket : r.socket with
    | nil => rw [openInetSocket_of_nil hres hsocket, openInetSocket_of_nil hres hsocket]
    | cons reply rest =>
      cases reply with
      | ok a => exact absurd ⟨addrs, hres, a, rest, hsocket⟩ h
      | error e =>
        rw [openInetSocket_of_error hres hsocket, openInetSocket_of_error hres hsocket]

theorem openInetSocket_isSet {ec : ErrorCode} {c : Ret (Int × Bytes)}
    (h : ¬ FirstWorks res servername port (inetSockType baseSocktype nonblocking) r)
    (hc : openInetSocket plat os res servername port baseSocktype nonblocking r ec = some c) :
    c.ec.isSet = true := by
  cases hres : resultAddr res servername port (inetSockType baseSocktype nonblocking) with
  | none =>
    simp only [openInetSocket, hres] at hc
    obtain rfl := Option.some.inj hc
    rfl
  | some addrs =>
    cases hsocket : r.socket with
    | nil => simp [openInetSocket_of_nil hres hsocket] at hc
    | cons reply replies =>
      cases reply with
      | ok a => exact absurd ⟨addrs, hres, a, replies, hsocket⟩ h
      | error e =>
        rw [openInetSocket_of_error hres hsocket] at hc
        obtain ⟨⟨t, rest⟩, hrun, rfl⟩ := Option.map_eq_some_iff.mp hc
        rw [inetResult_ec]
        exact AddressLoop.run_isSet (isSet_getLastSystemError_pnat plat e) hrun

/-- Whether the function returns does not depend on the error code on entry. -/
theorem openInetSocket_isSome (ec ec' : ErrorCode) :
    (openInetSocket plat os res servername port baseSocktype nonblocking r ec).isSome =
      (openInetSocket plat os res servername port baseSocktype nonblocking r ec').isSome := by
  by_cases h : FirstWorks res servername port (inetSockType baseSocktype nonblocking) r
  · obtain ⟨fd, addr, -, hopen⟩ := openInetSocket_of_works plat os h
    obtain ⟨c, hc, -⟩ := hopen ec
    obtain ⟨c', hc', -⟩ := hopen ec'
    rw [hc, hc', Option.isSome_some, Option.isSome_some]
  · rw [openInetSocket_congr h ec ec']

end OpenInetSocket

end PfsIo
