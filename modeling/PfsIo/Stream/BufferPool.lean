import Mathlib.Data.List.Infix
import PfsIo.Stream.BufferPending

/-!
# Buffers that share containers

Programs with any number of buffers over containers that are touched through buffers only. Several
buffers can read a container while others write to it, and a buffer can be copied with its position.

## Main definitions

* `BufferPool.step` — the steps.
* `BufferPool.Valid` — the invariant.

## Main results

* `BufferPool.run_shared` — the buffers of a container have got beginnings of one sequence.
-/

namespace PfsIo

open Library

/-- A buffer, the container that it was made for, and what its reads have returned and stored. -/
structure Slot where
  buffer : Buffer
  home : Nat
  reads : List (Tally UInt8)
  deriving DecidableEq

/-- The bytes that the reads of a buffer have reported. -/
def Slot.got (b : Slot) : Bytes := reportedBy b.reads

structure BufferPool where
  containers : Nat → Container
  /-- The bytes that writes have reported as written to each container. -/
  wrote : Nat → Bytes
  slots : Nat → Option Slot

namespace BufferPool

def start (initial : Nat → Container) : BufferPool := ⟨initial, fun _ => [], fun _ => none⟩

inductive Action where
  | make (i c oflags : Nat)
  /-- The copy constructor, or the copy assignment. -/
  | copy (i j : Nat)
  | read (i n : Nat) (ec : ErrorCode)
  | write (i : Nat) (bytes : Bytes) (ec : ErrorCode)
  | close (i : Nat)
  | destroy (i : Nat)

def put (s : BufferPool) (i : Nat) (b : Option Slot) : BufferPool :=
  { s with slots := Function.update s.slots i b }

/-- The steps; there is no state after a call that does not return. -/
def step : Machine BufferPool Action
  | s, .make i c oflags =>
    if (s.slots i).isNone then some (s.put i (some ⟨.ofContainer oflags, c, []⟩)) else none
  | s, .copy i j => (s.slots j).map fun b => s.put i (some b)
  | s, .read i n ec =>
    (s.slots i).bind fun b =>
      match b.buffer.read (s.containers b.home) n ec with
      | .returns r =>
        some (s.put i (some { b with buffer := r.buffer, reads := b.reads ++ [r.tally] }))
      | _ => none
  | s, .write i bytes ec =>
    (s.slots i).bind fun b =>
      match b.buffer.write (s.containers b.home) bytes ec with
      | .returns w =>
        some { s with
          containers := Function.update s.containers b.home w.container
          wrote := if 0 ≤ w.rc
            then Function.update s.wrote b.home (s.wrote b.home ++ bytes)
            else s.wrote }
      | _ => none
  | s, .close i => (s.slots i).map fun b => s.put i (some { b with buffer := b.buffer.close })
  | s, .destroy i => (s.slots i).map fun _ => s.put i none

/-- A buffer has got what its container has up to its position. -/
structure Follows (c : Container) (b : Slot) : Prop where
  counted : ∀ r ∈ b.reads, r.Exact
  closed : b.buffer.attached = false → b.buffer.oflags = notOpen
  position : b.buffer.pos ≤ c.bytes.length
  got : b.got = c.bytes.take b.buffer.pos

structure Valid (initial : Nat → Container) (s : BufferPool) : Prop where
  content : ∀ c, (s.containers c).bytes = (initial c).bytes ++ s.wrote c
  follows : ∀ i b, s.slots i = some b → Follows (s.containers b.home) b

variable {initial : Nat → Container} {s t : BufferPool} {c c' : Container} {b : Slot} {i n : Nat}
  {bytes : Bytes} {ec : ErrorCode}

/-- A container that grows does not disturb the buffers. -/
theorem Follows.grow (h : Follows c b) (hc : c.bytes <+: c'.bytes) : Follows c' b := by
  obtain ⟨more, hmore⟩ := hc
  have hposition := h.position
  refine ⟨h.counted, h.closed, ?_, ?_⟩
  · rw [← hmore, List.length_append]
    omega
  · rw [h.got, ← hmore, List.take_append_of_le_length hposition]

theorem Follows.rejects (h : Follows c b) (ha : b.buffer.attached = false) (flag : Nat) :
    hasFlag b.buffer.oflags flag = false := by
  rw [h.closed ha]
  simp [hasFlag, notOpen]

/-- A read is refused, or takes the bytes after the position. -/
theorem Follows.read_cases (h : Follows c b) (n : Nat) (ec : ErrorCode) :
    b.buffer.read c n ec = .returns ⟨-1, makeErrorCode .invalidArgument, [], b.buffer⟩ ∨
      let k := min n (c.bytes.length - b.buffer.pos)
      b.buffer.read c n ec = .returns ⟨k, ec, (c.bytes.drop b.buffer.pos).take k,
        { b.buffer with pos := b.buffer.pos + k }⟩ := by
  cases hr : hasFlag b.buffer.oflags readOnly with
  | false => exact .inl (Buffer.read_rejected hr)
  | true =>
    cases ha : b.buffer.attached with
    | false => exact absurd hr (by simp [h.rejects ha])
    | true => exact .inr (Buffer.read_spec hr ha h.position)

/-- A read that is not refused returns the number of bytes that it stores. -/
theorem Follows.read_exact {r : Buffer.Read} (h : Follows c b)
    (hread : b.buffer.read c n ec = .returns r) : r.tally.Exact := by
  rcases h.read_cases n ec with hrejected | hspec
  · obtain rfl := Outcome.returns.inj (hrejected.symm.trans hread)
    exact .failed (Int.negSucc_lt_zero 0)
  · obtain rfl := Outcome.returns.inj (hspec.symm.trans hread)
    left
    simp only [Buffer.Read.tally, List.length_take, List.length_drop]
    omega

theorem Follows.read {r : Buffer.Read} (h : Follows c b)
    (hread : b.buffer.read c n ec = .returns r) :
    Follows c { b with buffer := r.buffer, reads := b.reads ++ [r.tally] } := by
  have hexact := h.read_exact hread
  have hposition := h.position
  have hcounted := Tally.exact_concat h.counted hexact
  have hgot : reportedBy (b.reads ++ [r.tally]) = b.got ++ r.bytes := reportedBy_concat _ hexact
  rcases h.read_cases n ec with hrejected | hspec
  · obtain rfl := Outcome.returns.inj (hrejected.symm.trans hread)
    refine ⟨hcounted, h.closed, hposition, hgot.trans ?_⟩
    rw [h.got, List.append_nil]
  · obtain rfl := Outcome.returns.inj (hspec.symm.trans hread)
    refine ⟨hcounted, h.closed, ?_, hgot.trans ?_⟩
    · simp only
      omega
    · rw [h.got, ← List.take_add]

theorem Valid.put (hs : Valid initial s) (i : Nat) {b : Option Slot}
    (hb : ∀ b', b = some b' → Follows (s.containers b'.home) b') : Valid initial (s.put i b) := by
  refine ⟨hs.content, fun j b' hj => ?_⟩
  simp only [BufferPool.put, Function.update_apply] at hj
  split at hj
  · exact hb b' hj
  · exact hs.follows j b' hj

theorem Valid.write (hs : Valid initial s) {w : Buffer.Write}
    (hw : b.buffer.write (s.containers b.home) bytes ec = .returns w) :
    Valid initial { s with
      containers := Function.update s.containers b.home w.container
      wrote := if 0 ≤ w.rc then Function.update s.wrote b.home (s.wrote b.home ++ bytes)
        else s.wrote } := by
  rcases Buffer.write_returns hw with ⟨hrc, hsame⟩ | ⟨-, hrc, hgrown⟩
  · rw [hsame, Function.update_eq_self, hrc, if_neg (by omega)]
    exact hs
  · rw [hrc, if_pos (by omega)]
    refine ⟨fun c => ?_, fun j b' hj => ?_⟩
    · simp only [Function.update_apply]
      split
      · next heq => rw [hgrown, hs.content, heq, List.append_assoc]
      · exact hs.content c
    · have hfollows := hs.follows j b' hj
      simp only [Function.update_apply]
      split
      · next heq => exact (heq ▸ hfollows).grow ⟨bytes, hgrown.symm⟩
      · exact hfollows

theorem Valid.step (hs : Valid initial s) {a : Action} (h : step s a = some t) :
    Valid initial t := by
  cases a with
  | make i c oflags =>
    obtain ⟨-, h⟩ := Option.ite_none_right_eq_some.mp h
    obtain rfl := Option.some.inj h
    refine hs.put i fun b' hb' => ?_
    obtain rfl := Option.some.inj hb'
    exact ⟨by rintro r ⟨⟩, by simp [Buffer.ofContainer], Nat.zero_le _, rfl⟩
  | copy i j =>
    obtain ⟨b, hb, rfl⟩ := Option.map_eq_some_iff.mp h
    refine hs.put i fun b' hb' => ?_
    obtain rfl := Option.some.inj hb'
    exact hs.follows j b hb
  | read i n ec =>
    obtain ⟨b, hb, h⟩ := Option.bind_eq_some_iff.mp h
    split at h
    · next r hr =>
      obtain rfl := Option.some.inj h
      refine hs.put i fun b' hb' => ?_
      obtain rfl := Option.some.inj hb'
      exact (hs.follows i b hb).read hr
    · cases h
  | write i bytes ec =>
    obtain ⟨b, hb, h⟩ := Option.bind_eq_some_iff.mp h
    split at h
    · next w hw =>
      obtain rfl := Option.some.inj h
      exact hs.write hw
    · cases h
  | close i =>
    obtain ⟨b, hb, rfl⟩ := Option.map_eq_some_iff.mp h
    refine hs.put i fun b' hb' => ?_
    obtain rfl := Option.some.inj hb'
    have hfollows := hs.follows i b hb
    exact ⟨hfollows.counted, fun _ => rfl, hfollows.position, hfollows.got⟩
  | destroy i =>
    obtain ⟨b, hb, rfl⟩ := Option.map_eq_some_iff.mp h
    refine hs.put i fun b' hb' => ?_
    cases hb'

/-- A read returns what its mode allows; zero means that nothing is left. -/
theorem Follows.read_returns (h : Follows c b) (n : Nat) (ec : ErrorCode) :
    ∃ r, b.buffer.read c n ec = .returns r ∧
      (hasFlag b.buffer.oflags readOnly = true → 0 ≤ r.rc) ∧
      (0 < n → r.rc = 0 → b.got = c.bytes) := by
  cases hr : hasFlag b.buffer.oflags readOnly with
  | false => exact ⟨_, Buffer.read_rejected hr, by simp, by simp⟩
  | true =>
    cases ha : b.buffer.attached with
    | false => exact absurd hr (by simp [h.rejects ha])
    | true =>
      have hposition := h.position
      refine ⟨_, Buffer.read_spec hr ha hposition, fun _ => Int.natCast_nonneg _,
        fun hn hzero => ?_⟩
      rw [h.got]
      exact List.take_of_length_le (by simp only at hzero; omega)

/-- Calls on a buffer that follows its container do not dereference a null pointer. -/
theorem Follows.write_ne (h : Follows c b) (bytes : Bytes) (ec : ErrorCode) :
    b.buffer.write c bytes ec ≠ .nullDeref := by
  intro hnull
  cases ha : b.buffer.attached with
  | false =>
    rw [Buffer.write_rejected (h.rejects ha writeOnly)] at hnull
    cases hnull
  | true =>
    unfold Buffer.write at hnull
    simp only [ha, Bool.not_true, Bool.false_eq_true, if_false] at hnull
    split at hnull
    · cases hnull
    · split at hnull
      · cases hnull
      · split at hnull <;> cases hnull

/-- In every state that such a program reaches, a container has what it had at first and then the
bytes of all writes that were reported as written, in order, whichever buffers they went through;
each buffer has got the beginning of that up to its position, by reads that have returned the number
of bytes that they have stored, so that of two buffers of a container one has got the beginning of
what the other has. A further read returns, with an error only if the mode does not allow it, and
reports zero only if the buffer has got all; a further write dereferences no null pointer, and if it
returns it has appended its message and reports the length, or has failed and appended nothing. -/
theorem run_shared (initial : Nat → Container) (actions : List Action) (s : BufferPool)
    (hrun : Machine.run step (start initial) actions = some s) :
    (∀ c, (s.containers c).bytes = (initial c).bytes ++ s.wrote c) ∧
      (∀ i b, s.slots i = some b →
        (∀ r ∈ b.reads, r.Exact) ∧ b.got = (s.containers b.home).bytes.take b.buffer.pos ∧
        (∀ n ec, ∃ r, b.buffer.read (s.containers b.home) n ec = .returns r ∧ r.tally.Exact ∧
          (hasFlag b.buffer.oflags readOnly = true → 0 ≤ r.rc) ∧
          (0 < n → r.rc = 0 → b.got = (s.containers b.home).bytes)) ∧
        ∀ bytes ec, b.buffer.write (s.containers b.home) bytes ec ≠ .nullDeref ∧
          ∀ w, b.buffer.write (s.containers b.home) bytes ec = .returns w →
            (w.rc = -1 ∧ w.container = s.containers b.home) ∨
              (w.rc = bytes.length ∧ w.container.bytes = (s.containers b.home).bytes ++ bytes)) ∧
      ∀ i j b b', s.slots i = some b → s.slots j = some b' → b.home = b'.home →
        b.got <+: b'.got ∨ b'.got <+: b.got := by
  have hs : Valid initial s := by
    refine Machine.run_keeps (fun _ _ _ hs hst => hs.step hst) ⟨fun c => ?_, ?_⟩ hrun
    · exact (List.append_nil _).symm
    · rintro i b ⟨⟩
  refine ⟨hs.content, fun i b hb => ?_, fun i j b b' hb hb' hhome => ?_⟩
  · have hfollows := hs.follows i b hb
    refine ⟨hfollows.counted, hfollows.got, fun n ec => ?_, fun bytes ec =>
      ⟨hfollows.write_ne bytes ec, fun w hw => ?_⟩⟩
    · obtain ⟨r, hread, hallowed, hzero⟩ := hfollows.read_returns n ec
      exact ⟨r, hread, hfollows.read_exact hread, hallowed, hzero⟩
    · exact (Buffer.write_returns hw).imp_right And.right
  · have hprefix := (hs.follows i b hb).got ▸ List.take_prefix b.buffer.pos _
    have hprefix' := (hs.follows j b' hb').got ▸ List.take_prefix b'.buffer.pos _
    rw [← hhome] at hprefix'
    exact List.prefix_or_prefix_of_prefix hprefix hprefix'

/-- A reader is copied between two writes, and the writer is closed. -/
def session : List Action :=
  [.make 0 3 readOnly, .make 1 3 writeOnly, .write 1 [7] .clear, .read 0 2 .clear, .copy 2 0,
    .write 1 [8] .clear, .read 2 9 .clear, .close 1, .write 1 [9] .clear, .read 0 1 .clear]

/-- The copy of the reader at the end. -/
def copied : Slot := ⟨⟨true, readOnly, 5⟩, 3, [⟨2, [4, 5]⟩, ⟨3, [6, 7, 8]⟩]⟩

theorem run_shared_session :
    ∃ s, Machine.run step (start fun _ => SharedBuffer.three) session = some s ∧
      s.slots 2 = some copied ∧ (∀ r ∈ copied.reads, r.Exact) ∧
      copied.got = (s.containers 3).bytes.take 5 ∧
      ∀ c, (s.containers c).bytes = SharedBuffer.three.bytes ++ s.wrote c := by
  have hlast : (Machine.run step (start fun _ => SharedBuffer.three) session).bind
      (fun s => s.slots 2) = some copied := by decide +kernel
  obtain ⟨s, hrun, hslot⟩ := Option.bind_eq_some_iff.mp hlast
  obtain ⟨hcontent, hslots, -⟩ := run_shared (fun _ => SharedBuffer.three) session s hrun
  obtain ⟨hcounted, hgot, -, -⟩ := hslots 2 copied hslot
  exact ⟨s, hrun, hslot, hcounted, hgot, hcontent⟩

end BufferPool

end PfsIo
