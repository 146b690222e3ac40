import PfsIo.Datagram.Write
import PfsIo.Objects.Destination

/-!
# Replies to the sender of a datagram

`udp::read` offers no room for the sender's address, so the address variable keeps what
was in it and a reply goes there.

## Main results

* `Udp.Correspondence.run_spec` — where the replies of a run go.
* `Udp.replies_iff` — when they go to the senders of the datagrams just read.
-/

namespace PfsIo.Udp

open Library Socket

/-- The variable begins with the address, as far as the family of the address uses it. -/
def Holds (a : HostAddress) (addr : Bytes) : Prop := a.bytes.take addr.length = addr

instance (a : HostAddress) (addr : Bytes) : Decidable (Holds a addr) :=
  inferInstanceAs (Decidable (_ = _))

/-- After a datagram from `source` was read into `*paddr`, that is its sender's address,
and every call of a reply goes there. -/
def ReadyToReply (plat : Platform) (h : DeviceHandle) (paddr : HostAddress) (n : Nat)
    (payload source : Bytes) (errno : Nat) (ec : ErrorCode) : Prop :=
  let received := read plat paddr n (.ok (payload, source)) errno ec
  Holds received.2 source ∧
    ∀ (m : ℕ+) errno' ec' replies report,
      write plat h received.2 m errno' ec' replies = some report →
      ∀ call ∈ report.calls, call.addr.take source.length = source

/-- Reception of a datagram, or of an error, and replies. A reply is not empty. -/
inductive Exchange where
  | receive (n : Nat) (reply : Except ℕ+ (Bytes × Bytes))
  | respond (m : ℕ+) (replies : List Reply)

/-- A call that belongs to a reply, and the sender of the datagram read last before it. -/
structure Answer where
  call : SendTo
  sender : Option Bytes
  deriving DecidableEq

/-- Goes to the sender of the datagram read last, if there was one. -/
def Answer.Addressed (a : Answer) : Prop :=
  ∀ source, a.sender = some source → a.call.addr.take source.length = source

/-- A program that reads datagrams into one address variable and replies to it. -/
structure Correspondence where
  paddr : HostAddress
  errno : Nat
  ec : ErrorCode
  /-- The sender of the datagram read last. -/
  last : Option Bytes
  answers : List Answer

/-- The senders of the datagrams that were read last before each of the replies. -/
def answered : Option Bytes → List Exchange → List Bytes
  | _, [] => []
  | _, .receive _ (.ok (_, source)) :: rest => answered (some source) rest
  | last, .receive _ (.error _) :: rest => answered last rest
  | last, .respond _ _ :: rest => last.toList ++ answered last rest

namespace Correspondence

def start (paddr : HostAddress) (errno : Nat) (ec : ErrorCode) : Correspondence :=
  ⟨paddr, errno, ec, none, []⟩

/-- The sender of a datagram received, or else the one before. -/
def lastAfter (last : Option Bytes) : Except ℕ+ (Bytes × Bytes) → Option Bytes
  | .ok (_, source) => some source
  | .error _ => last

def step (plat : Platform) (h : DeviceHandle) : Machine Correspondence Exchange
  | s, .receive n reply =>
    let r := read plat s.paddr n reply s.errno s.ec
    some { s with
      paddr := r.2
      errno := r.1.errno
      ec := r.1.ec
      last := lastAfter s.last reply }
  | s, .respond m replies =>
    (write plat h s.paddr m s.errno s.ec replies).map fun report =>
      { s with
        errno := report.result.errno
        ec := report.result.ec
        answers := s.answers ++ report.calls.map fun call => ⟨call, s.last⟩ }

end Correspondence

variable {plat : Platform} {h : DeviceHandle} {s t : Correspondence} {exchanges : List Exchange}

/-- A write of a message that returns has called the kernel. -/
theorem calls_ne_nil {paddr : HostAddress} {m : ℕ+} {errno : Nat} {ec : ErrorCode}
    {replies : List Reply} {report : WriteReport}
    (hw : write plat h paddr m errno ec replies = some report) : report.calls ≠ [] := by
  have hm : (m : Nat) ≠ 0 := m.ne_zero
  have hsome := (write_isSome_iff.mp (Option.isSome_of_eq_some hw)).resolve_left hm
  obtain ⟨blocked, reply, rest, rfl, hblocked, hreply⟩ := exists_split hsome
  obtain ⟨errno', hw'⟩ := write_of_blocked hm hblocked hreply
  obtain rfl := Option.some.inj (hw'.symm.trans hw)
  cases reply <;> simp [reportOf]

theorem readyToReply_iff (plat : Platform) (h : DeviceHandle) (paddr : HostAddress) (n : Nat)
    (payload source : Bytes) (errno : Nat) (ec : ErrorCode) :
    ReadyToReply plat h paddr n payload source errno ec ↔ Holds paddr source := by
  simp only [ReadyToReply, read_addr]
  constructor
  · exact And.left
  · intro hpaddr
    refine ⟨hpaddr, fun m errno' ec' replies report hw call hcall => ?_⟩
    rw [(write_calls hw hcall).2]
    exact hpaddr

/-- The calls of a reply go to what is in the variable. -/
theorem addressed_iff {paddr : HostAddress} {calls : List SendTo} (last : Option Bytes)
    (hne : calls ≠ []) (hcalls : ∀ call ∈ calls, call.addr = paddr.bytes) :
    (∀ a ∈ calls.map fun call => (⟨call, last⟩ : Answer), a.Addressed) ↔
      ∀ source ∈ last.toList, Holds paddr source := by
  simp only [List.forall_mem_map, Answer.Addressed, Option.mem_toList, Holds]
  constructor
  · intro hall source hlast
    obtain ⟨call, hcall⟩ := List.exists_mem_of_ne_nil calls hne
    rw [← hcalls call hcall]
    exact hall call hcall source hlast
  · intro hall call hcall source hlast
    rw [hcalls call hcall]
    exact hall source hlast

/-- Where the replies of a run go: the variable is what it was at the beginning. -/
theorem Correspondence.run_spec (hrun : Machine.run (step plat h) s exchanges = some t) :
    t.paddr = s.paddr ∧
      ((∀ a ∈ t.answers, a.Addressed) ↔
        (∀ a ∈ s.answers, a.Addressed) ∧
          ∀ source ∈ answered s.last exchanges, Holds s.paddr source) := by
  induction exchanges generalizing s with
  | nil =>
    obtain rfl := Option.some.inj hrun
    simp [answered]
  | cons e exchanges ih =>
    obtain ⟨u, hstep, hrest⟩ := Machine.run_cons_eq_some.mp hrun
    obtain ⟨hpaddr, haddressed⟩ := ih hrest
    cases e with
    | receive n reply =>
      obtain rfl := Option.some.inj hstep
      simp only [read_addr] at hpaddr haddressed
      refine ⟨hpaddr, ?_⟩
      rw [haddressed]
      cases reply <;> rfl
    | respond m replies =>
      obtain ⟨report, hw, rfl⟩ := Option.map_eq_some_iff.mp hstep
      have hcalls := addressed_iff s.last (calls_ne_nil hw)
        fun call hcall => (write_calls hw hcall).2
      refine ⟨hpaddr, ?_⟩
      rw [haddressed, List.forall_mem_append, hcalls, answered, List.forall_mem_append, and_assoc]

/-- A reply goes to the sender of the datagram just read exactly when the address variable
had held that address before, for one datagram and for every run of receptions and
replies. -/
theorem replies_iff (plat : Platform) (h : DeviceHandle) :
    (∀ paddr n payload source errno ec,
      ReadyToReply plat h paddr n payload source errno ec ↔ Holds paddr source) ∧
    ∀ paddr errno ec exchanges t,
      Machine.run (Correspondence.step plat h) (.start paddr errno ec) exchanges = some t →
      ((∀ a ∈ t.answers, a.Addressed) ↔
        ∀ source ∈ answered none exchanges, Holds paddr source) := by
  refine ⟨fun paddr n payload source errno ec => readyToReply_iff .., ?_⟩
  intro paddr errno ec exchanges t hrun
  rw [(Correspondence.run_spec hrun).2]
  simp [Correspondence.start]

/-- The address of a host on port 53. -/
def peer : HostAddress := HostAddress.zero.memcpy (sockaddrIn 53 [127, 0, 0, 1])

/-- A variable that holds the only sender's address from the beginning. -/
theorem replies_iff_known :
    ∃ t, Machine.run (Correspondence.step .linux ⟨3⟩) (.start peer 0 .clear)
        [.receive 16 (.ok ([7], sockaddrIn 53 [127, 0, 0, 1])), .respond 1 [.ok ()]] = some t ∧
      t.answers.length = 1 ∧ ∀ a ∈ t.answers, a.Addressed :=
  ⟨_, rfl, rfl, ((replies_iff .linux ⟨3⟩).2 peer 0 .clear
    [.receive 16 (.ok ([7], sockaddrIn 53 [127, 0, 0, 1])), .respond 1 [.ok ()]] _ rfl).mpr
    (by decide)⟩

/-- A datagram from a host, read into an address variable just constructed: the reply is
addressed to zeros. -/
theorem not_readyToReply_fresh :
    ¬ ReadyToReply .linux ⟨3⟩ .zero 16 [7] (sockaddrIn 53 [127, 0, 0, 1]) 0 .clear ∧
      ∃ t, Machine.run (Correspondence.step .linux ⟨3⟩) (.start .zero 0 .clear)
          [.receive 16 (.ok ([7], sockaddrIn 53 [127, 0, 0, 1])), .respond 1 [.ok ()]] = some t ∧
        t.answers = [⟨⟨3, HostAddress.zero.bytes, ⟨0, 1, 1⟩⟩,
          some (sockaddrIn 53 [127, 0, 0, 1])⟩] ∧
        ¬ ∀ a ∈ t.answers, a.Addressed := by
  refine ⟨?_, _, rfl, rfl, ?_⟩
  · rw [readyToReply_iff]
    decide
  · intro hall
    have hzero := hall _ List.mem_cons_self _ rfl
    exact absurd hzero (by decide)

end PfsIo.Udp
