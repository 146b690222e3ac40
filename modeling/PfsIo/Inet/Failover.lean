import PfsIo.Inet.AddressLoop

/-!
# Failover between addresses

The address loop of `open_inet_socket`, with success or failure of `::socket` fixed for
each entry of the list. Its step expression goes back to the entry after the first, so
that entries from the third on are never tried.

## Main results

* `AddressLoop.openInetSocket_of_drive` — the loop as it runs inside the function.
* `AddressLoop.drive_diverges` — when the first two entries fail the loop does not end.
* `AddressLoop.failsOver_iff` — when the loop finds the first entry that works.
-/

namespace PfsIo

open Library

namespace AddressLoop

variable {plat : Platform} {port : UInt16} {addrs : AddrList} {s : AddressState addrs}
  {p : addrs.Ptr}

/-- The kernel's answers to `::socket` succeed on the entries that `works` says, however
often and in whatever state they are tried. -/
def Fixed (kernel : AddressState addrs → FdReply) (works : addrs.Ptr → Bool) : Prop :=
  ∀ s p, s.p = some p → (works p = true ∧ ∃ a, kernel s = .ok a) ∨
    (works p = false ∧ ∃ e, kernel s = .error e)

/-- The positions of the entries tried. -/
def tried (states : List (AddressState addrs)) : List Nat :=
  states.filterMap fun s => s.p.map Fin.val

theorem tried_cons (hp : s.p = some p) (states : List (AddressState addrs)) :
    tried (s :: states) = p.1 :: tried states := by
  simp [tried, hp]

/-- The last call was a successful `::socket` for the entry `p`, and its descriptor and
the address of the entry are selected. -/
structure Selects (port : UInt16) (s : AddressState addrs) (p : addrs.Ptr) : Prop where
  fd : 0 ≤ s.fd
  last : s.os.log.getLast? = some (socketCall addrs p s.fd)
  address : s.serveraddr = setSinPort (addrs.entry p).addr port

/-- The loop terminates. It has tried the entries in order up to the first that works,
and selected it; or it has tried them all, none works, and there is no descriptor. -/
def FailsOver (plat : Platform) (port : UInt16) (kernel : AddressState addrs → FdReply)
    (works : addrs.Ptr → Bool) (start : AddressState addrs) : Prop :=
  ∃ fuel states s, (addressLoop plat port addrs).drive kernel fuel start = some (states, s) ∧
    ((∃ p, works p = true ∧ (∀ q < p, works q = false) ∧
        tried states = List.range (p + 1) ∧ Selects port s p) ∨
      ((∀ q, works q = false) ∧ tried states = List.range addrs.1.length ∧
        s.fd = -1 ∧ s.serveraddr = start.serveraddr))

variable {kernel : AddressState addrs → FdReply} {works : addrs.Ptr → Bool}

theorem drive_works (plat : Platform) (port : UInt16) (h : Fixed kernel works) (hp : s.p = some p)
    (hw : works p = true) (fuel : Nat) :
    ∃ a, (addressLoop plat port addrs).drive kernel (fuel + 1) s =
      some ([s], selected port s p a) := by
  rcases h s p hp with ⟨-, a, hk⟩ | ⟨hw', -⟩
  · refine ⟨a, Loop.drive_succ_leave (guard_of_some hp) ?_ fuel⟩
    rw [hk, body_ok hp]
  · simp [hw] at hw'

theorem drive_fails (plat : Platform) (port : UInt16) (h : Fixed kernel works)
    (hp : s.p = some p) (hw : works p = false) (fuel : Nat) :
    ∃ e, (addressLoop plat port addrs).drive kernel (fuel + 1) s =
      ((addressLoop plat port addrs).drive kernel fuel (failed plat s p e)).map
        fun r => (s :: r.1, r.2) := by
  rcases h s p hp with ⟨hw', -⟩ | ⟨-, e, hk⟩
  · simp [hw] at hw'
  · refine ⟨e, Loop.drive_succ_next (guard_of_some hp) ?_ fuel⟩
    rw [hk, body_error hp]

theorem selected_selects (port : UInt16) (s : AddressState addrs) (p : addrs.Ptr) (a : Alloc) :
    Selects port (selected port s p a) p :=
  ⟨a.nonneg _, by simp [selected], rfl⟩

/-- When the first two entries fail the loop tries the second one for ever. -/
theorem drive_diverges (h : Fixed kernel works) (hlen : 1 < addrs.1.length)
    (hfirst : works addrs.first = false) (hsecond : works (second addrs hlen) = false)
    (hp : s.p = some addrs.first) (fuel : Nat) :
    (addressLoop plat port addrs).drive kernel fuel s = none := by
  let fixed (s : AddressState addrs) : Prop := ∃ p, s.p = some p ∧ works p = false
  refine Loop.drive_eq_none_of_fixed fixed ⟨_, hp, hfirst⟩ ?_ ?_ fuel
  · rintro s ⟨p, hp, -⟩
    exact guard_of_some hp
  · rintro s ⟨p, hp, hw⟩
    rcases h s p hp with ⟨hw', -⟩ | ⟨-, e, hk⟩
    · simp [hw] at hw'
    · rw [hk, body_error hp]
      exact ⟨_, rfl, second addrs hlen, aiNext_first hlen, hsecond⟩

/-- When the loop ends, the function returns on the answers for the states visited. -/
theorem openInetSocket_of_drive {os : Os} {res : Resolver} {servername : Bytes}
    {baseSocktype : Nat} {nonblocking : Bool} {ec : ErrorCode} {fuel : Nat}
    {states : List (AddressState addrs)}
    (hres : resultAddr res servername port (inetSockType baseSocktype nonblocking) = some addrs)
    (hdrive : (addressLoop plat port addrs).drive kernel fuel (.start addrs ec os) =
      some (states, s)) (close : Reply) :
    openInetSocket plat os res servername port baseSocktype nonblocking
      ⟨states.map kernel, close⟩ ec = some (inetResult s close) := by
  simp only [openInetSocket, hres, Loop.run_of_drive hdrive, Option.map_some]

theorem failsOver_of_first (plat : Platform) (port : UInt16) (h : Fixed kernel works)
    (ec : ErrorCode) (os : Os) (hfirst : works addrs.first = true) :
    FailsOver plat port kernel works (.start addrs ec os) := by
  obtain ⟨a, hdrive⟩ := drive_works plat port h (s := .start addrs ec os) rfl hfirst 0
  refine ⟨1, _, _, hdrive, .inl ⟨addrs.first, hfirst, ?_, rfl, selected_selects _ _ _ _⟩⟩
  intro q hq
  exact absurd hq (Nat.not_lt_zero q)

theorem failsOver_of_second (plat : Platform) (port : UInt16) (h : Fixed kernel works)
    (ec : ErrorCode) (os : Os) (hlen : 1 < addrs.1.length) (hfirst : works addrs.first = false)
    (hsecond : works (second addrs hlen) = true) :
    FailsOver plat port kernel works (.start addrs ec os) := by
  have hp : (AddressState.start addrs ec os).p = some addrs.first := rfl
  obtain ⟨e, hdrive⟩ := drive_fails plat port h hp hfirst 1
  have htp : (failed plat (.start addrs ec os) addrs.first e).p = some (second addrs hlen) :=
    aiNext_first hlen
  obtain ⟨a, hdrive'⟩ := drive_works plat port h htp hsecond 0
  rw [hdrive'] at hdrive
  refine ⟨2, _, _, hdrive, .inl ⟨second addrs hlen, hsecond, ?_, ?_, selected_selects _ _ _ _⟩⟩
  · intro q hq
    have hq0 : q = addrs.first := Fin.ext (Nat.lt_one_iff.mp hq)
    rw [hq0, hfirst]
  · rw [tried_cons hp, tried_cons htp]
    rfl

theorem failsOver_of_single (plat : Platform) (port : UInt16) (h : Fixed kernel works)
    (ec : ErrorCode) (os : Os) (hlen : ¬ 1 < addrs.1.length)
    (hfirst : works addrs.first = false) :
    FailsOver plat port kernel works (.start addrs ec os) := by
  have hp : (AddressState.start addrs ec os).p = some addrs.first := rfl
  obtain ⟨e, hdrive⟩ := drive_fails plat port h hp hfirst 0
  have htp : (failed plat (.start addrs ec os) addrs.first e).p = none :=
    aiNext_first_of_single hlen
  rw [Loop.drive_of_not_guard (guard_of_none htp)] at hdrive
  have hpos := List.length_pos_iff.mpr addrs.2
  have hone : addrs.1.length = 1 := by omega
  refine ⟨1, _, _, hdrive, .inr ⟨?_, ?_, rfl, rfl⟩⟩
  · intro q
    have hq := q.2
    have hq0 : q = addrs.first := Fin.ext (by simp only [AddrList.first]; omega)
    rw [hq0, hfirst]
  · have hrange : List.range addrs.1.length = [0] := by rw [hone]; rfl
    rw [tried_cons hp, hrange]
    rfl

/-- The loop fails over to the first entry that works unless there are two entries or
more and the first two fail. -/
theorem failsOver_iff (plat : Platform) (port : UInt16) (addrs : AddrList)
    (kernel : AddressState addrs → FdReply) (works : addrs.Ptr → Bool)
    (h : Fixed kernel works) (ec : ErrorCode) (os : Os) :
    FailsOver plat port kernel works (.start addrs ec os) ↔
      ¬ ∃ hlen : 1 < addrs.1.length,
        works addrs.first = false ∧ works (second addrs hlen) = false := by
  constructor
  · rintro ⟨fuel, states, s, hdrive, -⟩ ⟨hlen, hfirst, hsecond⟩
    rw [drive_diverges h hlen hfirst hsecond rfl fuel] at hdrive
    cases hdrive
  · intro hcond
    cases hfirst : works addrs.first with
    | true => exact failsOver_of_first plat port h ec os hfirst
    | false =>
      by_cases hlen : 1 < addrs.1.length
      · cases hsecond : works (second addrs hlen) with
        | true => exact failsOver_of_second plat port h ec os hlen hfirst hsecond
        | false => exact absurd ⟨hlen, hfirst, hsecond⟩ hcond
      · exact failsOver_of_single plat port h ec os hlen hfirst

/-- Three addresses of a host. -/
def threeAddrs : AddrList :=
  ⟨[⟨afInet6, sockStream, 6, sockaddrIn6 0 (List.replicate 16 1)⟩,
    ⟨afInet, sockStream, 6, sockaddrIn 0 [10, 0, 0, 1]⟩,
    ⟨afInet, sockStream, 6, sockaddrIn 0 [10, 0, 0, 2]⟩], by simp⟩

/-- A kernel on which `::socket` succeeds for one of the addresses. -/
def kernelOf (n : Nat) (s : AddressState threeAddrs) : FdReply :=
  if s.p.map Fin.val = some n then .ok (.prefer 3) else .error 97

def worksOn (n : Nat) (p : threeAddrs.Ptr) : Bool := p.1 == n

theorem fixed_kernelOf (n : Nat) : Fixed (kernelOf n) (worksOn n) := by
  intro s p hp
  by_cases h : p.1 = n
  · exact .inl ⟨by simp [worksOn, h], .prefer 3, by simp [kernelOf, hp, h]⟩
  · exact .inr ⟨by simp [worksOn, h], 97, by simp [kernelOf, hp, h]⟩

theorem failsOver_second :
    FailsOver .linux 80 (kernelOf 1) (worksOn 1) (.start threeAddrs .clear ⟨∅, 0, []⟩) :=
  (failsOver_iff .linux 80 threeAddrs (kernelOf 1) (worksOn 1) (fixed_kernelOf 1) .clear
    ⟨∅, 0, []⟩).mpr (by decide)

/-- With only the third address working the loop does not terminate. -/
theorem not_failsOver_third :
    Fixed (kernelOf 2) (worksOn 2) ∧ worksOn 2 ⟨2, by decide⟩ = true ∧
      ¬ FailsOver .linux 80 (kernelOf 2) (worksOn 2) (.start threeAddrs .clear ⟨∅, 0, []⟩) := by
  refine ⟨fixed_kernelOf 2, rfl, ?_⟩
  rintro ⟨fuel, states, s, hdrive, -⟩
  rw [drive_diverges (fixed_kernelOf 2) (by decide) rfl rfl rfl fuel] at hdrive
  cases hdrive

end AddressLoop

end PfsIo
