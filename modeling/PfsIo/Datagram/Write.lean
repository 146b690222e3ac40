import PfsIo.Library.Machine
import PfsIo.Stream.SendLoop

/-!
# One write, one datagram

The send loop of `udp::write` was written for streams. On datagrams it goes round while
the kernel reports would-block and ends at the first other answer, but it is not entered
for an empty message, which is reported as written and never sent.

## Main results

* `Udp.write_eq_some_iff` — the answers on which a write of a message returns.
* `Udp.write_of_blocked` — what it has sent then.
* `Udp.sent_iff` — the datagrams sent are the messages written, as long as none is empty.
-/

namespace PfsIo

open Library Library.Transfer

namespace Udp

open Socket

variable {plat : Platform} {h : DeviceHandle} {paddr : HostAddress} {n errno : Nat}
  {ec : ErrorCode} {replies blocked rest : List Reply} {reply : Reply} {message : Bytes}

/-- Each would-block adds one more request for all of the message. -/
theorem run_blocked (errno : Nat) (hn : n ≠ 0) (hblocked : ∀ r ∈ blocked, isBlocked plat r = true) :
    ∃ errno', ∀ rest, (writeLoop plat).run (.start n errno) (blocked ++ rest) =
      (writeLoop plat).run ⟨0, n, errno', List.replicate blocked.length ⟨0, n, 0⟩⟩ rest := by
  suffices hrun : ∀ requests, ∃ errno', ∀ rest,
      (writeLoop plat).run ⟨0, n, errno, requests⟩ (blocked ++ rest) = (writeLoop plat).run
        ⟨0, n, errno', requests ++ List.replicate blocked.length ⟨0, n, 0⟩⟩ rest by
    simpa [WriteState.start] using hrun []
  intro requests
  induction blocked generalizing errno requests with
  | nil => exact ⟨errno, by simp⟩
  | cons r blocked ih =>
    obtain ⟨hr, hrest⟩ := List.forall_mem_cons.mp hblocked
    cases r with
    | ok u => simp [isBlocked] at hr
    | error e =>
      obtain ⟨errno', hih⟩ := ih e hrest (requests ++ [⟨0, n, 0⟩])
      refine ⟨errno', fun rest => ?_⟩
      have hg : (writeLoop plat).guard ⟨0, n, errno, requests⟩ = true := by
        simpa [writeLoop] using hn
      have hb : (writeLoop plat).body ⟨0, n, errno, requests⟩ (.error e) = .next _ :=
        writeBody_wouldBlock plat _ hr
      rw [List.cons_append, Loop.run_cons_next hg hb, hih rest]
      simp [List.replicate_succ]

/-- The first answer other than would-block. -/
theorem exists_split (hsome : ∃ r ∈ replies, isBlocked plat r = false) :
    ∃ blocked reply rest, replies = blocked ++ reply :: rest ∧
      (∀ r ∈ blocked, isBlocked plat r = true) ∧ isBlocked plat reply = false := by
  have hfind : (replies.find? fun r => !isBlocked plat r).isSome := by
    simpa [List.find?_isSome] using hsome
  obtain ⟨reply, hreply⟩ := Option.isSome_iff_exists.mp hfind
  obtain ⟨hnot, blocked, rest, rfl, hblocked⟩ := List.find?_eq_some_iff_append.mp hreply
  exact ⟨blocked, reply, rest, rfl, by simpa using hblocked, by simpa using hnot⟩

/-- What a write of a message reports when `blocked` calls have reported would-block and
`reply` was the answer to the next one. -/
def reportOf (plat : Platform) (h : DeviceHandle) (paddr : HostAddress) (n errno : Nat)
    (ec : ErrorCode) (blocked : Nat) (reply : Reply) (rest : List Reply) : WriteReport where
  result := match reply with
    | .ok _ => ⟨toInt n, if toInt n < 0 then getLastSystemError plat errno else ec, errno,
        List.replicate blocked ⟨0, n, 0⟩ ++ [⟨0, n, n⟩]⟩
    | .error e => ⟨-1, getLastSystemError plat e, e, List.replicate (blocked + 1) ⟨0, n, 0⟩⟩
  calls := match reply with
    | .ok _ => List.replicate blocked ⟨h.fd, paddr.bytes, ⟨0, n, 0⟩⟩ ++
        [⟨h.fd, paddr.bytes, ⟨0, n, n⟩⟩]
    | .error _ => List.replicate (blocked + 1) ⟨h.fd, paddr.bytes, ⟨0, n, 0⟩⟩
  rest := rest

/-- A write of a message ends at the first answer other than would-block. -/
theorem write_of_blocked (hn : n ≠ 0) (hblocked : ∀ r ∈ blocked, isBlocked plat r = true)
    (hreply : isBlocked plat reply = false) :
    ∃ errno', write plat h paddr n errno ec (blocked ++ reply :: rest) =
      some (reportOf plat h paddr n errno' ec blocked.length reply rest) := by
  obtain ⟨errno', hrun⟩ := run_blocked errno hn hblocked
  refine ⟨errno', ?_⟩
  simp only [write, hrun]
  generalize hs : (⟨0, n, errno', List.replicate blocked.length ⟨0, n, 0⟩⟩ : WriteState) = s
  have hg : (writeLoop plat).guard s = true := by
    simpa [writeLoop, ← hs] using hn
  cases reply with
  | ok u =>
    have hb : (writeLoop plat).body s (.ok u) = .next _ := writeBody_ok plat s s.n
    have hend : (writeLoop plat).guard { s with
        requests := s.requests ++ [⟨s.totalWritten, s.n, s.n⟩]
        totalWritten := toInt (s.totalWritten + s.n)
        n := toSizeT ((s.n : Int) - s.n) } = false := by
      simp [writeLoop, toSizeT]
    rw [Loop.run_cons_next hg hb, Loop.run_of_not_guard hend, Option.map_some]
    simp [reportOf, writeResult, ← hs]
  | error e =>
    have hb : (writeLoop plat).body s (.error e) = .leave _ := writeBody_fatal plat s hreply
    rw [Loop.run_cons_leave hg hb, Option.map_some]
    simp [reportOf, writeResult, ← hs, List.replicate_succ']

/-- Nothing is asked of the kernel for an empty message. -/
theorem write_empty : write plat h paddr 0 errno ec replies =
    some ⟨⟨0, ec, errno, []⟩, [], replies⟩ := by
  have hrun : (writeLoop plat).run (.start 0 errno) replies = some (.start 0 errno, replies) :=
    Loop.run_of_not_guard rfl
  simp only [write, hrun]
  rfl

/-- A write of a message returns exactly when one of the answers is not would-block. -/
theorem write_isSome_iff :
    (write plat h paddr n errno ec replies).isSome ↔
      n = 0 ∨ ∃ r ∈ replies, isBlocked plat r = false := by
  by_cases hn : n = 0
  · subst hn
    rw [write_empty, Option.isSome_some]
    simp
  · simp only [hn, false_or]
    constructor
    · intro hsome
      by_contra hnone
      have hblocked : ∀ r ∈ replies, isBlocked plat r = true := by simpa using hnone
      obtain ⟨errno', hrun⟩ := run_blocked errno hn hblocked
      have hg : (writeLoop plat).guard
          ⟨0, n, errno', List.replicate replies.length ⟨0, n, 0⟩⟩ = true := by
        simpa [writeLoop] using hn
      have hnil := hrun []
      rw [List.append_nil, Loop.run_nil_of_guard hg] at hnil
      simp [write, hnil] at hsome
    · intro hsome
      obtain ⟨blocked, reply, rest, rfl, hblocked, hreply⟩ := exists_split hsome
      obtain ⟨errno', hw⟩ := write_of_blocked hn hblocked hreply
      rw [hw, Option.isSome_some]

/-- A datagram on its way: where it comes from, where it goes, and its payload. -/
structure Packet where
  fd : Int
  addr : Bytes
  payload : Bytes
  deriving DecidableEq, Repr

/-- The datagrams that the kernel has sent for a write: one for each call it answered
with success. -/
def sentBy (message : Bytes) (replies : List Reply) (report : WriteReport) : List Packet :=
  ((report.calls.zip replies).filter fun call => call.2.isOk).map fun call =>
    let q := call.1.request
    ⟨call.1.fd, call.1.addr, (message.drop q.offset.toNat).take q.length⟩

/-- A write that returns the length of the message has sent it as one datagram, and one
that returns a negative value has sent none. -/
def OneDatagram (h : DeviceHandle) (paddr : HostAddress) (message : Bytes)
    (replies : List Reply) (report : WriteReport) : Prop :=
  (report.result.rc = message.length →
    sentBy message replies report = [⟨h.fd, paddr.bytes, message⟩]) ∧
  (report.result.rc < 0 → sentBy message replies report = [])

theorem sentBy_blocked (hblocked : ∀ r ∈ blocked, isBlocked plat r = true) (call : SendTo) :
    ((List.replicate blocked.length call).zip blocked).filter (fun call => call.2.isOk) = [] := by
  rw [List.filter_eq_nil_iff]
  intro x hx
  have hr := hblocked x.2 (List.of_mem_zip hx).2
  cases hx2 : x.2 with
  | ok u => simp [hx2, isBlocked] at hr
  | error e => simp

/-- What a write of a message has sent, by the first answer other than would-block. -/
theorem sentBy_reportOf (hblocked : ∀ r ∈ blocked, isBlocked plat r = true) :
    sentBy message (blocked ++ reply :: rest)
        (reportOf plat h paddr message.length errno ec blocked.length reply rest) =
      if reply.isOk then [⟨h.fd, paddr.bytes, message⟩] else [] := by
  cases reply with
  | ok u =>
    simp [sentBy, reportOf, List.zip_append, sentBy_blocked hblocked, List.filter_cons]
  | error e =>
    simp [sentBy, reportOf, List.replicate_succ', List.zip_append, sentBy_blocked hblocked]

theorem rc_reportOf (hn : n ≤ intMax) (blocked : Nat) :
    (reportOf plat h paddr n errno ec blocked reply rest).result.rc =
      if reply.isOk then (n : Int) else -1 := by
  cases reply with
  | ok u => simp [reportOf, toInt_of_le hn]
  | error e => simp [reportOf]

/-- What a write returns and what it has sent, for every message. -/
theorem sentBy_of_write (hlen : message.length ≤ intMax) {report : WriteReport}
    (hw : write plat h paddr message.length errno ec replies = some report) :
    (report.result.rc = message.length ∨ report.result.rc = -1 ∧ message ≠ []) ∧
      sentBy message replies report =
        if report.result.rc = message.length ∧ message ≠ [] then [⟨h.fd, paddr.bytes, message⟩]
        else [] := by
  by_cases hm : message = []
  · subst hm
    obtain rfl := Option.some.inj (write_empty.symm.trans hw)
    exact ⟨.inl rfl, by simp [sentBy]⟩
  · have hn : message.length ≠ 0 := by simpa using hm
    have hreturns := Option.isSome_of_eq_some hw
    have hsome := (write_isSome_iff.mp hreturns).resolve_left hn
    obtain ⟨blocked, reply, rest, rfl, hblocked, hreply⟩ := exists_split hsome
    obtain ⟨errno', hw'⟩ := write_of_blocked hn hblocked hreply
    obtain rfl := Option.some.inj (hw'.symm.trans hw)
    rw [sentBy_reportOf hblocked, rc_reportOf hlen]
    cases reply with
    | ok u => simp [hm]
    | error e =>
      have hneg : (-1 : Int) ≠ message.length := by omega
      simp [hm, hneg]

theorem oneDatagram_iff (hlen : message.length ≤ intMax) {report : WriteReport}
    (hw : write plat h paddr message.length errno ec replies = some report) :
    OneDatagram h paddr message replies report ↔ message ≠ [] := by
  obtain ⟨hrc, hsent⟩ := sentBy_of_write hlen hw
  unfold OneDatagram
  constructor
  · rintro ⟨hone, -⟩ hm
    have hall : report.result.rc = message.length := hrc.resolve_right fun hno => hno.2 hm
    have hnone : sentBy message replies report = [] := by simpa [hm] using hsent
    simp [hone hall] at hnone
  · intro hm
    refine ⟨fun hall => by simpa [hall, hm] using hsent, fun hneg => ?_⟩
    have hne : report.result.rc ≠ message.length := by omega
    simpa [hne] using hsent

/-- A call of `udp::write` with the answers it meets. -/
structure Message where
  addr : HostAddress
  payload : Bytes
  replies : List Reply

/-- A program that writes to one socket. -/
structure Sender where
  errno : Nat
  ec : ErrorCode
  /-- The datagrams that the kernel has sent. -/
  sent : List Packet
  /-- The messages whose writes have returned their lengths. -/
  written : List Packet
  deriving DecidableEq

namespace Sender

def start (errno : Nat) (ec : ErrorCode) : Sender := ⟨errno, ec, [], []⟩

def step (plat : Platform) (h : DeviceHandle) : Machine Sender Message
  | s, m =>
    (write plat h m.addr m.payload.length s.errno s.ec m.replies).map fun report =>
      { errno := report.result.errno
        ec := report.result.ec
        sent := s.sent ++ sentBy m.payload m.replies report
        written := if report.result.rc = m.payload.length
          then s.written ++ [⟨h.fd, m.addr.bytes, m.payload⟩] else s.written }

/-- The empty messages among the written ones. -/
def HasEmpty (s : Sender) : Prop := ∃ p ∈ s.written, p.payload = []

/-- The datagrams sent are the messages written without the empty ones. -/
def Sound (s : Sender) : Prop := s.sent = s.written.filter fun p => p.payload ≠ []

theorem Sound.eq_iff {s : Sender} (hs : s.Sound) : s.sent = s.written ↔ ¬ s.HasEmpty := by
  rw [hs, List.filter_eq_self]
  simp [HasEmpty]

variable {s t : Sender} {m : Message} {messages : List Message}

theorem step_spec (hlen : m.payload.length ≤ intMax) (hstep : step plat h s m = some t) :
    (s.Sound → t.Sound) ∧ (t.HasEmpty ↔ s.HasEmpty ∨ m.payload = []) := by
  obtain ⟨report, hw, rfl⟩ := Option.map_eq_some_iff.mp hstep
  obtain ⟨hrc, hsent⟩ := sentBy_of_write hlen hw
  unfold Sound HasEmpty
  simp only [hsent]
  rcases hrc with hrc | ⟨hrc, hm⟩
  · by_cases hm : m.payload = []
    · simp [hrc, hm]
    · simp +contextual [hrc, hm, or_and_right, exists_or]
  · have hne : (-1 : Int) ≠ m.payload.length := by omega
    simp +contextual [hrc, hne, hm]

theorem run_spec (hlen : ∀ m ∈ messages, m.payload.length ≤ intMax)
    (hrun : Machine.run (step plat h) s messages = some t) :
    (s.Sound → t.Sound) ∧ (t.HasEmpty ↔ s.HasEmpty ∨ ∃ m ∈ messages, m.payload = []) := by
  induction messages generalizing s with
  | nil =>
    obtain rfl := Option.some.inj hrun
    simp
  | cons m messages ih =>
    obtain ⟨hm, hmessages⟩ := List.forall_mem_cons.mp hlen
    obtain ⟨u, hstep, hrest⟩ := Machine.run_cons_eq_some.mp hrun
    obtain ⟨hsound, hempty⟩ := step_spec hm hstep
    obtain ⟨hsound', hempty'⟩ := ih hmessages hrest
    refine ⟨hsound' ∘ hsound, ?_⟩
    rw [hempty', hempty, or_assoc, List.exists_mem_cons_iff]

end Sender

/-- Each write of a message comes down to one datagram, or none when it fails, and the
datagrams of a sequence of writes are the messages written, as long as no message is
empty. The lengths of datagrams are well within an `int`. -/
theorem sent_iff (plat : Platform) (h : DeviceHandle) :
    (∀ paddr message errno ec replies, message.length ≤ intMax →
      (∃ r ∈ replies, isBlocked plat r = false) →
      ∃ report, write plat h paddr message.length errno ec replies = some report ∧
        (OneDatagram h paddr message replies report ↔ message ≠ [])) ∧
    ∀ messages errno ec t, (∀ m ∈ messages, m.payload.length ≤ intMax) →
      Machine.run (Sender.step plat h) (.start errno ec) messages = some t →
      (t.sent = t.written ↔ ∀ m ∈ messages, m.payload ≠ []) := by
  refine ⟨?_, ?_⟩
  · intro paddr message errno ec replies hlen hsome
    have hreturns : (write plat h paddr message.length errno ec replies).isSome :=
      write_isSome_iff.mpr (.inr hsome)
    obtain ⟨report, hw⟩ := Option.isSome_iff_exists.mp hreturns
    exact ⟨report, hw, oneDatagram_iff hlen hw⟩
  · intro messages errno ec t hlen hrun
    obtain ⟨hsound, hempty⟩ := Sender.run_spec hlen hrun
    rw [(hsound rfl).eq_iff, hempty]
    simp [Sender.HasEmpty, Sender.start]

/-- A message that goes after one would-block, and another one that is refused. -/
theorem sent_iff_retry :
    (∃ report, write .linux ⟨3⟩ .zero 2 0 .clear [.error 11, .ok ()] = some report ∧
      (OneDatagram ⟨3⟩ .zero [1, 2] [.error 11, .ok ()] report ↔ ([1, 2] : Bytes) ≠ [])) ∧
    ∃ t, Machine.run (Sender.step .linux ⟨3⟩) (.start 0 .clear)
        [⟨.zero, [1, 2], [.error 11, .ok ()]⟩, ⟨.zero, [7], [.error 111]⟩] = some t ∧
      t.sent = [⟨3, HostAddress.zero.bytes, [1, 2]⟩] ∧ t.sent = t.written :=
  have h := sent_iff .linux ⟨3⟩
  ⟨h.1 .zero [1, 2] 0 .clear [.error 11, .ok ()] (by decide) ⟨.ok (), by simp, rfl⟩,
    _, rfl, rfl, (h.2 [⟨.zero, [1, 2], [.error 11, .ok ()]⟩, ⟨.zero, [7], [.error 111]⟩]
      0 .clear _ (by decide) rfl).mpr (by decide)⟩

/-- An empty message is reported as written, and the kernel is not called. -/
theorem not_oneDatagram_empty :
    ∃ report, write .linux ⟨3⟩ .zero 0 0 .clear [.ok ()] = some report ∧ report.result.rc = 0 ∧
      report.result.ec = .clear ∧ report.calls = [] ∧
      ¬ OneDatagram ⟨3⟩ .zero [] [.ok ()] report := by
  refine ⟨_, rfl, rfl, rfl, rfl, ?_⟩
  rintro ⟨hone, -⟩
  exact absurd (hone rfl) (by decide)

end Udp

end PfsIo
