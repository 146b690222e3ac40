import PfsIo.Library.Loop
import PfsIo.Library.Machine
import PfsIo.Model.Buffer

/-!
# Pending data of a buffer

`buffer::has_pending_data` against `buffer::read`, on a buffer whose owner changes the
container at will between the calls. The one subtracts without looking, the other asks
first; and the one does not look at the pointer that `close` clears.

## Main results

* `SharedBuffer.pending_law_iff` — when the two agree in a state.
* `SharedBuffer.has_pending_data_iff` — in every state that a run leads to.
-/

namespace PfsIo

open Library

namespace Buffer

variable {b : Buffer} {c : Container} {n : Nat} {ec : ErrorCode}

/-- A position at the end of the container, or behind it. -/
theorem read_past (hr : hasFlag b.oflags readOnly = true) (ha : b.attached = true)
    (hpos : c.bytes.length ≤ b.pos) : b.read c n ec = .returns ⟨0, ec, [], b⟩ := by
  simp [read, hr, ha, hpos]

theorem hasPendingData_of_le (ha : b.attached = true) (hpos : b.pos ≤ c.bytes.length) :
    b.hasPendingData c = .returns (decide (b.pos < c.bytes.length)) := by
  have hfits := c.fits
  have hbounded := c.bounded
  unfold ssizeMax at hbounded
  have hsub : toSizeT ((c.bytes.length : Int) - b.pos) = c.bytes.length - b.pos :=
    toSizeT_sub hpos (by omega)
  simp [hasPendingData, ha, hsub]

/-- The difference wraps, and seems to be positive. -/
theorem hasPendingData_of_lt (ha : b.attached = true) (hpos : c.bytes.length < b.pos)
    (hbound : b.pos ≤ ssizeMax) : b.hasPendingData c = .returns true := by
  have hwrap : toSizeT ((c.bytes.length : Int) - b.pos) > 0 := by
    unfold ssizeMax at hbound
    unfold toSizeT
    omega
  simp [hasPendingData, ha, hwrap]

end Buffer

/-- A buffer and the container that its owner keeps. -/
structure SharedBuffer where
  buffer : Buffer
  container : Container
  ec : ErrorCode

namespace SharedBuffer

inductive Action where
  | read (n : Nat)
  | write (bytes : Bytes)
  | close
  /-- The owner puts something else into the container. -/
  | own (container : Container)

/-- A buffer just opened. -/
def start (initial : Container) (oflags : Nat) (ec : ErrorCode) : SharedBuffer :=
  ⟨.ofContainer oflags, initial, ec⟩

def step : Machine SharedBuffer Action
  | s, .read n =>
    match s.buffer.read s.container n s.ec with
    | .returns r => some { s with buffer := r.buffer, ec := r.ec }
    | _ => none
  | s, .write bytes =>
    match s.buffer.write s.container bytes s.ec with
    | .returns w => some { s with container := w.container, ec := w.ec }
    | _ => none
  | s, .close => some { s with buffer := s.buffer.close }
  | s, .own container => some { s with container := container }

/-- `while (d.has_pending_data()) d.read(...)`, with reads of the given sizes. -/
def drainLoop : Loop SharedBuffer Nat where
  guard s := match s.buffer.hasPendingData s.container with
    | .returns pending => pending
    | _ => false
  body s n := match s.buffer.read s.container n s.ec with
    | .returns r => .next { s with buffer := r.buffer, ec := r.ec }
    | _ => .leave s

/-- A read of `n` bytes returns a positive count. -/
def Readable (s : SharedBuffer) (n : Nat) : Prop :=
  ∃ r, s.buffer.read s.container n s.ec = .returns r ∧ 0 < r.rc

/-- `has_pending_data` is defined, its difference does not wrap, and it tells whether reads
of any positive size return something; and the loop that it guards ends. -/
structure PendingLaw (s : SharedBuffer) : Prop where
  defined : ∃ pending, s.buffer.hasPendingData s.container = .returns pending
  exact : (toSizeT ((s.container.bytes.length : Int) - s.buffer.pos) : Int) =
    s.container.bytes.length - s.buffer.pos
  agrees : ∀ n, 1 ≤ n → (s.buffer.hasPendingData s.container = .returns true ↔ s.Readable n)
  ends : ∀ sizes : Nat → Nat, (∀ i, 1 ≤ sizes i) → drainLoop.Ends s sizes

/-- The buffer is not closed, and the position is not behind the end. -/
structure InBounds (s : SharedBuffer) : Prop where
  attached : s.buffer.attached = true
  position : s.buffer.pos ≤ s.container.bytes.length

/-- What every run on a buffer opened for reading keeps. -/
structure Tracked (s : SharedBuffer) : Prop where
  mode : s.buffer.attached = true → hasFlag s.buffer.oflags readOnly = true
  closed : s.buffer.attached = false → s.buffer.oflags = notOpen
  position : s.buffer.pos ≤ ssizeMax

variable {s t : SharedBuffer} {n : Nat} {a : Action}

theorem Tracked.start (initial : Container) (oflags : Nat) (ec : ErrorCode)
    (hr : hasFlag oflags readOnly = true) : Tracked (start initial oflags ec) :=
  ⟨fun _ => hr, fun h => by simp [SharedBuffer.start, Buffer.ofContainer] at h, Nat.zero_le _⟩

/-- A read leaves the position where it was, or moves it within the container. -/
theorem Tracked.read (h : Tracked s) (n : Nat) :
    ∃ r, s.buffer.read s.container n s.ec = .returns r ∧
      r.buffer.attached = s.buffer.attached ∧ r.buffer.oflags = s.buffer.oflags ∧
      (r.buffer.pos = s.buffer.pos ∨ r.buffer.pos ≤ s.container.bytes.length) := by
  cases ha : s.buffer.attached with
  | false =>
    have hr : hasFlag s.buffer.oflags readOnly = false := by
      rw [h.closed ha]
      rfl
    exact ⟨_, Buffer.read_rejected hr, ha, rfl, .inl rfl⟩
  | true =>
    rcases Nat.le_total s.buffer.pos s.container.bytes.length with hpos | hpos
    · refine ⟨_, Buffer.read_spec (h.mode ha) ha hpos, ha, rfl, .inr ?_⟩
      simp only
      omega
    · exact ⟨_, Buffer.read_past (h.mode ha) ha hpos, ha, rfl, .inl rfl⟩

theorem Tracked.step (h : Tracked s) (hstep : step s a = some t) : Tracked t := by
  cases a with
  | read n =>
    obtain ⟨r, hread, hattached, hoflags, hpos⟩ := h.read n
    simp only [SharedBuffer.step, hread] at hstep
    obtain rfl := Option.some.inj hstep
    have hfits := s.container.fits
    have hbounded := s.container.bounded
    have hposition := h.position
    refine ⟨?_, ?_, ?_⟩
    · simpa only [hattached, hoflags] using h.mode
    · simpa only [hattached, hoflags] using h.closed
    · simp only
      omega
  | write bytes =>
    simp only [SharedBuffer.step] at hstep
    split at hstep
    · obtain rfl := Option.some.inj hstep
      exact ⟨h.mode, h.closed, h.position⟩
    · cases hstep
  | close =>
    obtain rfl := Option.some.inj hstep
    exact ⟨by simp [Buffer.close], fun _ => rfl, h.position⟩
  | own container =>
    obtain rfl := Option.some.inj hstep
    exact ⟨h.mode, h.closed, h.position⟩

theorem InBounds.hasPendingData (hb : InBounds s) :
    s.buffer.hasPendingData s.container =
      .returns (decide (s.buffer.pos < s.container.bytes.length)) :=
  Buffer.hasPendingData_of_le hb.attached hb.position

theorem InBounds.guard (hb : InBounds s) :
    drainLoop.guard s = decide (s.buffer.pos < s.container.bytes.length) := by
  simp only [drainLoop, hb.hasPendingData]

theorem InBounds.body (h : Tracked s) (hb : InBounds s) (n : Nat) :
    drainLoop.body s n = .next { s with buffer := { s.buffer with
      pos := s.buffer.pos + min n (s.container.bytes.length - s.buffer.pos) } } := by
  have hread : s.buffer.read s.container n s.ec = .returns _ :=
    Buffer.read_spec (h.mode hb.attached) hb.attached hb.position
  simp only [drainLoop, hread]

/-- Every read of the loop comes closer to the end of the container. -/
theorem InBounds.ends (h : Tracked s) (hb : InBounds s) {sizes : Nat → Nat}
    (hsizes : ∀ i, 1 ≤ sizes i) : drainLoop.Ends s sizes := by
  refine Loop.ends_of_fair (fun s => s.container.bytes.length - s.buffer.pos) (1 ≤ ·)
    (fun s => Tracked s ∧ InBounds s) ?_ (fun i => ⟨0, hsizes i⟩) ⟨h, hb⟩
  rintro s n t ⟨hs, hbs⟩ hg hbody
  obtain rfl := Flow.next.inj ((hbs.body hs n).symm.trans hbody)
  have hlt : s.buffer.pos < s.container.bytes.length := by simpa [hbs.guard] using hg
  have hfits := s.container.fits
  have hbounded := s.container.bounded
  refine ⟨⟨⟨hs.mode, hs.closed, ?_⟩, hbs.attached, ?_⟩, ?_, fun hn => ?_⟩
  all_goals
    simp only
    omega

theorem InBounds.readable_iff (h : Tracked s) (hb : InBounds s) (hn : 1 ≤ n) :
    s.Readable n ↔ s.buffer.pos < s.container.bytes.length := by
  have hread : s.buffer.read s.container n s.ec = .returns _ :=
    Buffer.read_spec (h.mode hb.attached) hb.attached hb.position
  constructor
  · rintro ⟨r, hr, hpos⟩
    obtain rfl := Outcome.returns.inj (hread.symm.trans hr)
    simp only at hpos
    omega
  · intro hlt
    refine ⟨_, hread, ?_⟩
    simp only
    omega

theorem InBounds.law (h : Tracked s) (hb : InBounds s) : PendingLaw s := by
  refine ⟨⟨_, hb.hasPendingData⟩, ?_, ?_, fun sizes hsizes => hb.ends h hsizes⟩
  · have hfits := s.container.fits
    have hbounded := s.container.bounded
    have hpos := hb.position
    unfold ssizeMax at hbounded
    unfold toSizeT
    omega
  · intro n hn
    rw [hb.hasPendingData, hb.readable_iff h hn]
    simp

/-- With the position behind the end there is data pending for ever, and none to read. -/
theorem overrun (h : Tracked s) (ha : s.buffer.attached = true)
    (hpos : s.container.bytes.length < s.buffer.pos) :
    s.buffer.hasPendingData s.container = .returns true ∧ (∀ n, ¬ s.Readable n) ∧
      ∀ sizes, ¬ drainLoop.Ends s sizes := by
  have hpending := Buffer.hasPendingData_of_lt ha hpos h.position
  have hread : ∀ n, s.buffer.read s.container n s.ec = .returns ⟨0, s.ec, [], s.buffer⟩ :=
    fun n => Buffer.read_past (h.mode ha) ha (Nat.le_of_lt hpos)
  refine ⟨hpending, ?_, fun sizes => ?_⟩
  · rintro n ⟨r, hr, hrc⟩
    obtain rfl := Outcome.returns.inj ((hread n).symm.trans hr)
    exact absurd hrc (Int.lt_irrefl 0)
  · refine Loop.not_ends_of_fixed (· = s) rfl ?_ ?_
    · rintro _ rfl
      simp only [drainLoop, hpending]
    · rintro _ n rfl
      exact ⟨_, by simp only [drainLoop, hread], rfl⟩

theorem pending_law_iff (h : Tracked s) : PendingLaw s ↔ InBounds s := by
  refine ⟨fun hlaw => ?_, fun hb => hb.law h⟩
  have ha : s.buffer.attached = true := by
    obtain ⟨pending, hpending⟩ := hlaw.defined
    by_contra hdetached
    simp [Buffer.hasPendingData, hdetached] at hpending
  refine ⟨ha, ?_⟩
  by_contra hpos
  obtain ⟨hpending, hnone, -⟩ := overrun h ha (Nat.not_le.mp hpos)
  exact hnone 1 ((hlaw.agrees 1 (Nat.le_refl 1)).mp hpending)

/-- The buffer is not closed, and its owner leaves what has been read in the container. -/
def Careful (s : SharedBuffer) : Action → Prop
  | .close => False
  | .own container => s.buffer.pos ≤ container.bytes.length
  | _ => True

theorem InBounds.step (h : Tracked s) (hb : InBounds s) (ha : Careful s a)
    (hstep : step s a = some t) : InBounds t := by
  cases a with
  | read n =>
    obtain ⟨r, hread, hattached, -, hpos⟩ := h.read n
    simp only [SharedBuffer.step, hread] at hstep
    obtain rfl := Option.some.inj hstep
    refine ⟨hattached.trans hb.attached, ?_⟩
    rcases hpos with hsame | hle
    · exact hsame ▸ hb.position
    · exact hle
  | write bytes =>
    simp only [SharedBuffer.step] at hstep
    split at hstep
    · next w hw =>
      obtain rfl := Option.some.inj hstep
      refine ⟨hb.attached, ?_⟩
      rcases Buffer.write_returns hw with ⟨-, hsame⟩ | ⟨-, -, hmore⟩
      · exact hsame ▸ hb.position
      · simp only [hmore, List.length_append]
        exact Nat.le_add_right_of_le hb.position
    · cases hstep
  | close => exact ha.elim
  | own container =>
    obtain rfl := Option.some.inj hstep
    exact ⟨hb.attached, ha⟩

/-- In every state that a run on a buffer opened for reading leads to, whatever its owner
does, `has_pending_data` is defined, agrees with `read` and ends its loop exactly when the
buffer is not closed and its position is not behind the end; so it does in every state of
a run without `close` in which the owner leaves what has been read in the container. -/
theorem has_pending_data_iff (initial : Container) (oflags : Nat) (ec : ErrorCode)
    (hr : hasFlag oflags readOnly = true) :
    (∀ actions s, Machine.run step (start initial oflags ec) actions = some s →
      (PendingLaw s ↔ InBounds s)) ∧
    ∀ actions s, Machine.Along step Careful (start initial oflags ec) actions →
      Machine.run step (start initial oflags ec) actions = some s → PendingLaw s := by
  refine ⟨?_, ?_⟩
  · intro actions s hrun
    have h : Tracked s := Machine.run_keeps (fun _ _ _ hs hst => hs.step hst)
      (Tracked.start initial oflags ec hr) hrun
    exact pending_law_iff h
  · intro actions s hcareful hrun
    have hstart : InBounds (start initial oflags ec) := ⟨rfl, Nat.zero_le _⟩
    obtain ⟨h, hb⟩ : Tracked s ∧ InBounds s :=
      hcareful.keeps (fun s => Tracked s ∧ InBounds s)
        (fun _ _ _ hs ha hst => ⟨hs.1.step hst, hs.2.step hs.1 ha hst⟩)
        ⟨Tracked.start initial oflags ec hr, hstart⟩ hrun
    exact hb.law h

/-- Three bytes. -/
def three : Container := ⟨[4, 5, 6], 7, by decide, by decide⟩

/-- The owner takes away the byte that has not been read. -/
theorem has_pending_data_shrunk :
    ∃ s, Machine.run step (start three readOnly .clear)
        [.read 2, .own ⟨[4, 5], 7, by decide, by decide⟩] = some s ∧ PendingLaw s := by
  obtain ⟨-, hcareful⟩ := has_pending_data_iff three readOnly .clear rfl
  refine ⟨_, rfl, hcareful [.read 2, .own ⟨[4, 5], 7, by decide, by decide⟩] _ ?_ rfl⟩
  have hread : step (start three readOnly .clear) (.read 2) =
      some ⟨⟨true, readOnly, 2⟩, three, .clear⟩ := rfl
  refine ⟨trivial, fun s hs => ⟨?_, fun _ _ => trivial⟩⟩
  obtain rfl := Option.some.inj (hread.symm.trans hs)
  exact Nat.le_refl 2

/-- All bytes are read and the owner empties the container: data is pending, a read returns
nothing, and the loop does not end. And after `close` a null pointer is dereferenced. -/
theorem not_has_pending_data_emptied :
    (∃ s, Machine.run step (start three readOnly .clear)
        [.read 3, .own ⟨[], 7, by decide, by decide⟩] = some s ∧
      s.buffer.hasPendingData s.container = .returns true ∧ ¬ s.Readable 1 ∧
      ¬ drainLoop.Ends s (fun _ => 1) ∧ ¬ PendingLaw s) ∧
    ∃ s, Machine.run step (start three readOnly .clear) [.close] = some s ∧
      s.buffer.hasPendingData s.container = .nullDeref ∧ ¬ PendingLaw s := by
  have hstart := Tracked.start three readOnly .clear rfl
  refine ⟨⟨_, rfl, ?_⟩, _, rfl, rfl, ?_⟩
  · obtain ⟨hpending, hnone, hends⟩ := overrun
      (s := ⟨⟨true, readOnly, 3⟩, ⟨[], 7, by decide, by decide⟩, .clear⟩)
      ⟨fun _ => rfl, by simp, by decide⟩ rfl (by decide)
    exact ⟨hpending, hnone 1, hends _,
      fun hlaw => hnone 1 ((hlaw.agrees 1 (Nat.le_refl 1)).mp hpending)⟩
  · rintro ⟨⟨pending, hpending⟩, -⟩
    cases hpending

end SharedBuffer

end PfsIo
