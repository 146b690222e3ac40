import PfsIo.Library.Machine
import PfsIo.Model.Buffer

/-!
# A buffer as a stream

Any run of reads and writes on a buffer over a container that nobody else touches. The
history keeps each call with what it returned; the law of the stream links it with the
container and with the position of the buffer.

## Main results

* `BufferStream.Law.step` — every call keeps the law.
* `BufferStream.drain` — reads of any positive sizes come to the end of the content.
* `BufferStream.run_law` — the stream law for every run.
-/

namespace PfsIo

open Library

inductive BufferCall where
  | read (n : Nat)
  | write (bytes : Bytes)

/-- A call with what it returned, and the bytes that a read stored. -/
inductive BufferEvent where
  | read (n : Nat) (rc : Int) (stored : Bytes)
  | write (bytes : Bytes) (rc : Int)
  deriving DecidableEq

namespace BufferEvent

/-- The bytes that a read has reported; none when it failed. -/
def readBytes : BufferEvent → Bytes
  | .read _ rc stored => stored.take rc.toNat
  | .write _ _ => []

/-- The bytes of a successful write. -/
def writtenBytes : BufferEvent → Bytes
  | .read _ _ _ => []
  | .write bytes rc => if 0 ≤ rc then bytes else []

/-- A read that the mode allows returns the number of bytes that it has stored; a write returns
the length of its message, unless it has failed. -/
def Counted (oflags : Nat) : BufferEvent → Prop
  | .read n rc stored =>
    if hasFlag oflags readOnly then rc = stored.length ∧ stored.length ≤ n
    else rc = -1 ∧ stored = []
  | .write bytes rc => rc = -1 ∨ (hasFlag oflags writeOnly = true ∧ rc = bytes.length)

end BufferEvent

structure BufferStream where
  buffer : Buffer
  container : Container
  ec : ErrorCode
  history : List BufferEvent
  deriving DecidableEq

namespace BufferStream

/-- A buffer just opened over the container. -/
def start (initial : Container) (oflags : Nat) (ec : ErrorCode) : BufferStream :=
  ⟨.ofContainer oflags, initial, ec, []⟩

/-- A call; there is no state after one that does not return. -/
def step : Machine BufferStream BufferCall
  | s, .read n =>
    match s.buffer.read s.container n s.ec with
    | .returns r => some { s with
        buffer := r.buffer
        ec := r.ec
        history := s.history ++ [.read n r.rc r.bytes] }
    | _ => none
  | s, .write bytes =>
    match s.buffer.write s.container bytes s.ec with
    | .returns w => some { s with
        container := w.container
        ec := w.ec
        history := s.history ++ [.write bytes w.rc] }
    | _ => none

/-- The bytes of all successful reads. -/
def readBytes (s : BufferStream) : Bytes := s.history.flatMap BufferEvent.readBytes

/-- The bytes of all successful writes. -/
def writtenBytes (s : BufferStream) : Bytes := s.history.flatMap BufferEvent.writtenBytes

/-- Whether the mode of the buffer allows the call. -/
def allows (oflags : Nat) : BufferCall → Bool
  | .read _ => hasFlag oflags readOnly
  | .write _ => hasFlag oflags writeOnly

/-- A call that the mode rejects, or that does not drive the container past its
maximal size. -/
def Fits (oflags : Nat) (s : BufferStream) : BufferCall → Prop
  | .read _ => True
  | .write bytes => hasFlag oflags writeOnly = true →
      (s.container.bytes ++ bytes).length ≤ s.container.maxSize

/-- What links the history with the container and the position. -/
structure Law (initial : Container) (oflags : Nat) (s : BufferStream) : Prop where
  attached : s.buffer.attached = true
  mode : s.buffer.oflags = oflags
  content : s.container.bytes = initial.bytes ++ s.writtenBytes
  delivered : s.readBytes = s.container.bytes.take s.buffer.pos
  position : s.buffer.pos ≤ s.container.bytes.length
  counted : ∀ e ∈ s.history, e.Counted oflags

variable {initial : Container} {oflags : Nat} {s t : BufferStream} {n : Nat} {bytes : Bytes}

theorem Law.start (initial : Container) (oflags : Nat) (ec : ErrorCode) :
    Law initial oflags (start initial oflags ec) :=
  ⟨rfl, rfl, (List.append_nil _).symm, rfl, Nat.zero_le _, by rintro e ⟨⟩⟩

/-- A read takes what is left after the position, up to its size. -/
theorem Law.read (h : Law initial oflags s) (hr : hasFlag oflags readOnly = true) (n : Nat) :
    let k := min n (s.container.bytes.length - s.buffer.pos)
    step s (.read n) = some { s with
      buffer := { s.buffer with pos := s.buffer.pos + k }
      history := s.history ++ [.read n k ((s.container.bytes.drop s.buffer.pos).take k)] } := by
  intro k
  have hread : s.buffer.read s.container n s.ec = .returns _ :=
    Buffer.read_spec (h.mode ▸ hr) h.attached h.position
  simp only [step, hread, k]

theorem Law.read_at_end (h : Law initial oflags s) (hr : hasFlag oflags readOnly = true)
    (hend : s.buffer.pos = s.container.bytes.length) (n : Nat) :
    step s (.read n) = some { s with history := s.history ++ [.read n 0 []] } := by
  have hread := h.read hr n
  simpa [← hend] using hread

theorem Law.read_rejected (h : Law initial oflags s) (hr : hasFlag oflags readOnly = false)
    (n : Nat) : step s (.read n) = some { s with
      ec := makeErrorCode .invalidArgument
      history := s.history ++ [.read n (-1) []] } := by
  simp only [step, Buffer.read_rejected (h.mode ▸ hr)]

theorem Law.write (h : Law initial oflags s) (hw : hasFlag oflags writeOnly = true)
    (hfit : (s.container.bytes ++ bytes).length ≤ s.container.maxSize) :
    step s (.write bytes) = some { s with
      container := ⟨s.container.bytes ++ bytes, s.container.maxSize, hfit, s.container.bounded⟩
      history := s.history ++ [.write bytes bytes.length] } := by
  have hwrite : s.buffer.write s.container bytes s.ec = .returns _ :=
    Buffer.write_spec (h.mode ▸ hw) h.attached h.position hfit
  simp only [step, hwrite]

theorem Law.write_rejected (h : Law initial oflags s) (hw : hasFlag oflags writeOnly = false)
    (bytes : Bytes) : step s (.write bytes) = some { s with
      ec := makeErrorCode .invalidArgument
      history := s.history ++ [.write bytes (-1)] } := by
  simp only [step, Buffer.write_rejected (h.mode ▸ hw)]

/-- One more call whose count is right. -/
theorem counted_concat {history : List BufferEvent} {last : BufferEvent}
    (h : ∀ e ∈ history, e.Counted oflags) (hlast : last.Counted oflags) :
    ∀ e ∈ history ++ [last], e.Counted oflags :=
  List.forall_mem_append.mpr ⟨h, List.forall_mem_singleton.mpr hlast⟩

theorem Law.step_read (h : Law initial oflags s) (hstep : step s (.read n) = some t) :
    Law initial oflags t := by
  cases hr : hasFlag oflags readOnly with
  | true =>
    obtain rfl := Option.some.inj ((h.read hr n).symm.trans hstep)
    obtain ⟨attached, mode, content, delivered, position, counted⟩ := h
    refine ⟨attached, mode, ?_, ?_, ?_, counted_concat counted ?_⟩
    · simpa [writtenBytes, BufferEvent.writtenBytes] using content
    · simp only [readBytes, List.flatMap_append, List.flatMap_cons, List.flatMap_nil,
        List.append_nil, BufferEvent.readBytes] at delivered ⊢
      rw [delivered, Int.toNat_natCast, List.take_take, Nat.min_self, ← List.take_add]
    · show s.buffer.pos + min n (s.container.bytes.length - s.buffer.pos) ≤
        s.container.bytes.length
      omega
    · simp only [BufferEvent.Counted, hr, if_true, List.length_take, List.length_drop]
      omega
  | false =>
    obtain rfl := Option.some.inj ((h.read_rejected hr n).symm.trans hstep)
    obtain ⟨attached, mode, content, delivered, position, counted⟩ := h
    refine ⟨attached, mode, ?_, ?_, position, counted_concat counted ?_⟩
    · simpa [writtenBytes, BufferEvent.writtenBytes] using content
    · simpa [readBytes, BufferEvent.readBytes] using delivered
    · simp [BufferEvent.Counted, hr]

theorem Law.step_write (h : Law initial oflags s) (hstep : step s (.write bytes) = some t) :
    Law initial oflags t := by
  have hmode := h.mode
  obtain ⟨attached, mode, content, delivered, position, counted⟩ := h
  simp only [step] at hstep
  split at hstep
  · next w hw =>
    obtain rfl := Option.some.inj hstep
    rcases Buffer.write_returns hw with ⟨hrc, hc⟩ | ⟨hallowed, hrc, hc⟩
    · refine ⟨attached, mode, ?_, ?_, by simpa [hc] using position,
        counted_concat counted (Or.inl hrc)⟩
      · simpa [writtenBytes, BufferEvent.writtenBytes, hrc, hc] using content
      · simpa [readBytes, BufferEvent.readBytes, hc] using delivered
    · refine ⟨attached, mode, ?_, ?_, ?_, counted_concat counted (Or.inr ⟨hmode ▸ hallowed, hrc⟩)⟩
      · simp [writtenBytes, BufferEvent.writtenBytes, hrc, hc, content]
      · simp only [readBytes, hc] at delivered ⊢
        simp [BufferEvent.readBytes, delivered, List.take_append_of_le_length position]
      · simp only [hc, List.length_append]
        omega
  · cases hstep

/-- Every call that returns keeps the law. -/
theorem Law.step {call : BufferCall} (h : Law initial oflags s) (hstep : step s call = some t) :
    Law initial oflags t := by
  cases call with
  | read n => exact h.step_read hstep
  | write bytes => exact h.step_write hstep

/-- Every call that fits returns; one that the mode rejects leaves everything as it is. -/
theorem Law.returns (h : Law initial oflags s) (call : BufferCall) (hfit : Fits oflags s call) :
    ∃ t, BufferStream.step s call = some t ∧
      (allows oflags call = false → t.container = s.container ∧ t.buffer = s.buffer ∧
        t.readBytes = s.readBytes ∧ t.writtenBytes = s.writtenBytes) ∧
      (allows oflags call = true → ∀ bytes, call = .write bytes →
        t.writtenBytes = s.writtenBytes ++ bytes) := by
  cases call with
  | read n =>
    cases hr : hasFlag oflags readOnly with
    | true => exact ⟨_, h.read hr n, by simp [allows, hr], by simp⟩
    | false =>
      refine ⟨_, h.read_rejected hr n, fun _ => ⟨rfl, rfl, ?_, ?_⟩, by simp⟩
      · simp [readBytes, BufferEvent.readBytes]
      · simp [writtenBytes, BufferEvent.writtenBytes]
  | write bytes =>
    cases hw : hasFlag oflags writeOnly with
    | true =>
      refine ⟨_, h.write hw (hfit hw), by simp [allows, hw], ?_⟩
      rintro - bytes' ⟨⟩
      simp [writtenBytes, BufferEvent.writtenBytes]
    | false =>
      refine ⟨_, h.write_rejected hw bytes, fun _ => ⟨rfl, rfl, ?_, ?_⟩, by simp [allows, hw]⟩
      · simp [readBytes, BufferEvent.readBytes]
      · simp [writtenBytes, BufferEvent.writtenBytes]

/-- A read of a positive size returns zero only when all of the content has been read. -/
theorem Law.readBytes_of_zero (h : Law initial oflags s) (hr : hasFlag oflags readOnly = true)
    (hn : 0 < n) {stored : Bytes} (hstep : BufferStream.step s (.read n) = some t)
    (hzero : t.history = s.history ++ [.read n 0 stored]) :
    t.readBytes = t.container.bytes := by
  have ht := h.step hstep
  obtain rfl := Option.some.inj ((h.read hr n).symm.trans hstep)
  have hk : n = 0 ∨ s.container.bytes.length - s.buffer.pos = 0 := by
    have hlast := congrArg List.getLast? hzero
    simp only [List.getLast?_concat, Option.some.injEq, BufferEvent.read.injEq] at hlast
    omega
  have hpos := h.position
  rw [ht.delivered]
  apply List.take_of_length_le
  show s.container.bytes.length ≤ s.buffer.pos + min n (s.container.bytes.length - s.buffer.pos)
  omega

/-- Reads of the given sizes. -/
def reads (chunks : Nat → Nat) (k : Nat) : List BufferCall :=
  (List.range k).map fun i => .read (chunks i)

theorem reads_succ (chunks : Nat → Nat) (k : Nat) :
    reads chunks (k + 1) = .read (chunks 0) :: reads (fun i => chunks (i + 1)) k := by
  simp [reads, List.range_succ_eq_map, Function.comp_def]

/-- Reads of any positive sizes come to a state in which the position is at the end. -/
theorem drain (h : Law initial oflags s) (hr : hasFlag oflags readOnly = true)
    (chunks : Nat → Nat) (hpos : ∀ i, 0 < chunks i) :
    ∃ k t, Machine.run BufferStream.step s (reads chunks k) = some t ∧
      t.container = s.container ∧ t.buffer.pos = t.container.bytes.length := by
  induction hleft : s.container.bytes.length - s.buffer.pos using Nat.strong_induction_on
    generalizing s chunks with
  | _ left ih =>
    have hle := h.position
    by_cases hend : s.buffer.pos = s.container.bytes.length
    · exact ⟨0, s, rfl, rfl, hend⟩
    · have hread := h.read hr (chunks 0)
      have hfirst := hpos 0
      obtain ⟨k, t, hrun, ht⟩ := ih _ (by simp only; omega) (h.step hread)
        (fun i => chunks (i + 1)) (fun i => hpos (i + 1)) rfl
      refine ⟨k + 1, t, ?_, ht⟩
      rw [reads_succ, Machine.run_cons, hread, Option.bind_some, hrun]

/-- The stream law. In every run on a buffer opened with any mode, the container is the
initial content followed by what was written, and the reads have delivered its first
`pos` bytes; each read that the mode allows has returned the number of bytes that it has
stored; every further call that fits returns, and does nothing when the mode rejects
it; and on a readable buffer, repeated reads come to one that returns zero, which happens
only when the whole content has been read. -/
theorem run_law (initial : Container) (oflags : Nat) (ec : ErrorCode) (calls : List BufferCall)
    (s : BufferStream) (hrun : Machine.run step (start initial oflags ec) calls = some s) :
    s.container.bytes = initial.bytes ++ s.writtenBytes ∧
      s.readBytes = s.container.bytes.take s.buffer.pos ∧
      s.buffer.pos ≤ s.container.bytes.length ∧
      (∀ e ∈ s.history, e.Counted oflags) ∧
      (∀ call, Fits oflags s call → ∃ t, step s call = some t ∧
        (allows oflags call = false → t.container = s.container ∧ t.buffer = s.buffer ∧
          t.readBytes = s.readBytes ∧ t.writtenBytes = s.writtenBytes) ∧
        (allows oflags call = true → ∀ bytes, call = .write bytes →
          t.writtenBytes = s.writtenBytes ++ bytes)) ∧
      (hasFlag oflags readOnly = true →
        (∀ n t stored, 0 < n → step s (.read n) = some t →
          t.history = s.history ++ [.read n 0 stored] → t.readBytes = t.container.bytes) ∧
        ∀ chunks : Nat → Nat, (∀ i, 0 < chunks i) → ∃ k t u,
          Machine.run step s (reads chunks k) = some t ∧ step t (.read (chunks k)) = some u ∧
            u.history = t.history ++ [.read (chunks k) 0 []] ∧
            u.container = s.container ∧ u.readBytes = u.container.bytes) := by
  have keeps : ∀ s call t, Law initial oflags s → step s call = some t → Law initial oflags t :=
    fun _ _ _ hs hst => hs.step hst
  have h : Law initial oflags s := Machine.run_keeps keeps (.start _ _ _) hrun
  refine ⟨h.content, h.delivered, h.position, h.counted, h.returns, fun hr => ⟨?_, ?_⟩⟩
  · intro n t stored hn hstep hzero
    exact h.readBytes_of_zero hr hn hstep hzero
  · intro chunks hpos
    obtain ⟨k, t, hdrain, hcontainer, hend⟩ := drain h hr chunks hpos
    have ht := Machine.run_keeps keeps h hdrain
    have hlast := ht.read_at_end hr hend (chunks k)
    exact ⟨k, t, _, hdrain, hlast, rfl, hcontainer, ht.readBytes_of_zero hr (hpos k) hlast rfl⟩

/-- A read before the first write, two writes around a read of nothing, and a long read. -/
def mixed : List BufferCall := [.read 2, .write [7], .read 0, .write [8, 9], .read 100]

/-- A container of three bytes with room for some more. -/
def small : Container := ⟨[1, 2, 3], 16, by decide, by decide⟩

/-- Where the calls of `mixed` come to on `small`. -/
def mixedEnd : BufferStream where
  buffer := ⟨true, readOnly ||| writeOnly, 6⟩
  container := ⟨[1, 2, 3, 7, 8, 9], 16, by decide, by decide⟩
  ec := .clear
  history := [.read 2 2 [1, 2], .write [7] 1, .read 0 0 [], .write [8, 9] 2,
    .read 100 4 [3, 7, 8, 9]]

theorem run_law_mixed :
    mixedEnd.container.bytes = small.bytes ++ mixedEnd.writtenBytes ∧
      mixedEnd.readBytes = mixedEnd.container.bytes.take mixedEnd.buffer.pos ∧
      mixedEnd.buffer.pos ≤ mixedEnd.container.bytes.length ∧
      ∀ e ∈ mixedEnd.history, e.Counted (readOnly ||| writeOnly) :=
  have h := run_law small (readOnly ||| writeOnly) .clear mixed mixedEnd (by decide +kernel)
  ⟨h.1, h.2.1, h.2.2.1, h.2.2.2.1⟩

end BufferStream

end PfsIo
