import PfsIo.Stream.BufferStream

/-!
# The capacity of a buffer

`buffer::write` compares the message with the room behind the read position, although it
is appended behind the content. A message that fits the one and not the other is handed to
`append`, which throws out of the `noexcept` member.

## Main results

* `BufferStream.Law.write_law_iff` — one write in any reachable state.
* `BufferStream.write_capacity_iff` — and the runs of such writes.
-/

namespace PfsIo

open Library

namespace Buffer

variable {b : Buffer} {c : Container} {bytes : Bytes} {ec : ErrorCode}

/-- The guard rejects what does not fit behind the position. -/
theorem write_too_large (hw : hasFlag b.oflags writeOnly = true) (ha : b.attached = true)
    (hpos : b.pos ≤ c.bytes.length) (hlarge : c.maxSize < b.pos + bytes.length) :
    b.write c bytes ec = .returns ⟨-1, makeErrorCode .deviceTooLarge, c⟩ := by
  have hfits := c.fits
  have hbounded := c.bounded
  unfold ssizeMax at hbounded
  have hsub : toSizeT ((c.maxSize : Int) - b.pos) = c.maxSize - b.pos :=
    toSizeT_sub (by omega) (by omega)
  have hguard : bytes.length > c.maxSize - b.pos := by omega
  simp only [write, hw, ha, hsub, hguard, Bool.not_true, Bool.false_eq_true, if_false, if_true]

/-- A message that passes the guard and does not fit. -/
theorem write_terminates (hw : hasFlag b.oflags writeOnly = true) (ha : b.attached = true)
    (hpos : b.pos + bytes.length ≤ c.maxSize)
    (hlarge : c.maxSize < c.bytes.length + bytes.length) :
    b.write c bytes ec = .terminate := by
  have hbounded := c.bounded
  unfold ssizeMax at hbounded
  have hsub : toSizeT ((c.maxSize : Int) - b.pos) = c.maxSize - b.pos :=
    toSizeT_sub (by omega) (by omega)
  have hguard : ¬ bytes.length > c.maxSize - b.pos := by omega
  have hfit : ¬ (c.bytes ++ bytes).length ≤ c.maxSize := by
    rw [List.length_append]
    omega
  simp only [write, hw, ha, hsub, hguard, append, hfit, Bool.not_true, Bool.false_eq_true,
    if_false, dif_neg, not_false_eq_true]

end Buffer

namespace BufferStream

variable {initial : Container} {oflags : Nat} {s t : BufferStream} {bytes : Bytes}
  {call : BufferCall}

/-- The write appends the message and returns its length. -/
def Accepts (s : BufferStream) (bytes : Bytes) : Prop :=
  ∃ t, step s (.write bytes) = some t ∧ t.history = s.history ++ [.write bytes bytes.length] ∧
    t.container.bytes = s.container.bytes ++ bytes ∧
    t.container.maxSize = s.container.maxSize ∧ t.buffer = s.buffer ∧ t.ec = s.ec

/-- The write returns `-1` with `device_too_large` and leaves content and position. -/
def Rejects (s : BufferStream) (bytes : Bytes) : Prop :=
  ∃ t, step s (.write bytes) = some t ∧ t.history = s.history ++ [.write bytes (-1)] ∧
    t.container = s.container ∧ t.buffer = s.buffer ∧ t.ec = makeErrorCode .deviceTooLarge

/-- A write succeeds exactly when the message fits behind the content, and is rejected
otherwise. -/
def WriteLaw (s : BufferStream) (bytes : Bytes) : Prop :=
  (s.container.bytes.length + bytes.length ≤ s.container.maxSize → Accepts s bytes) ∧
    (¬ s.container.bytes.length + bytes.length ≤ s.container.maxSize → Rejects s bytes)

/-- The message fits behind the content, or not even behind the position. -/
def GuardAgrees (s : BufferStream) (bytes : Bytes) : Prop :=
  s.container.bytes.length + bytes.length ≤ s.container.maxSize ∨
    s.container.maxSize < s.buffer.pos + bytes.length

theorem Law.accepts (h : Law initial oflags s) (hw : hasFlag oflags writeOnly = true)
    (hfit : s.container.bytes.length + bytes.length ≤ s.container.maxSize) : Accepts s bytes := by
  have hfit' : (s.container.bytes ++ bytes).length ≤ s.container.maxSize := by
    rwa [List.length_append]
  exact ⟨_, h.write hw hfit', rfl, rfl, rfl, rfl, rfl⟩

theorem Law.rejects (h : Law initial oflags s) (hw : hasFlag oflags writeOnly = true)
    (hlarge : s.container.maxSize < s.buffer.pos + bytes.length) : Rejects s bytes := by
  have hwrite : s.buffer.write s.container bytes s.ec = .returns _ :=
    Buffer.write_too_large (h.mode ▸ hw) h.attached h.position hlarge
  refine ⟨{ s with
    ec := makeErrorCode .deviceTooLarge
    history := s.history ++ [.write bytes (-1)] }, ?_, rfl, rfl, rfl, rfl⟩
  simp only [BufferStream.step, hwrite]

theorem Law.terminates (h : Law initial oflags s) (hw : hasFlag oflags writeOnly = true)
    (hguard : ¬ GuardAgrees s bytes) : BufferStream.step s (.write bytes) = none := by
  obtain ⟨hlarge, hpos⟩ := not_or.mp hguard
  have hwrite : s.buffer.write s.container bytes s.ec = .terminate :=
    Buffer.write_terminates (h.mode ▸ hw) h.attached (Nat.not_lt.mp hpos) (Nat.not_le.mp hlarge)
  simp only [BufferStream.step, hwrite]

/-- One write on a writable buffer. -/
theorem Law.write_law_iff (h : Law initial oflags s) (hw : hasFlag oflags writeOnly = true) :
    WriteLaw s bytes ↔ GuardAgrees s bytes := by
  constructor
  · rintro ⟨-, hrejects⟩
    by_contra hguard
    obtain ⟨t, hstep, -⟩ := hrejects (not_or.mp hguard).1
    simp [h.terminates hw hguard] at hstep
  · intro hguard
    refine ⟨h.accepts hw, fun hlarge => ?_⟩
    exact h.rejects hw (hguard.resolve_left hlarge)

/-- A property of writes, as one of calls. -/
def OfWrite (P : BufferStream → Bytes → Prop) (s : BufferStream) : BufferCall → Prop
  | .read _ => True
  | .write bytes => P s bytes

theorem Law.isSome_step (h : Law initial oflags s) (hw : hasFlag oflags writeOnly = true)
    (hcall : OfWrite GuardAgrees s call) : (BufferStream.step s call).isSome := by
  cases call with
  | read n =>
    obtain ⟨t, ht, -⟩ := h.returns (.read n) trivial
    exact Option.isSome_of_eq_some ht
  | write bytes =>
    by_cases hfit : s.container.bytes.length + bytes.length ≤ s.container.maxSize
    · obtain ⟨t, ht, -⟩ := h.accepts hw hfit
      exact Option.isSome_of_eq_some ht
    · obtain ⟨t, ht, -⟩ := h.rejects hw (Or.resolve_left hcall hfit)
      exact Option.isSome_of_eq_some ht

/-- In every state that reads and writes lead to, a write succeeds exactly when the message
fits, and is rejected otherwise, exactly when the message fits behind the content or not
even behind the position. A run whose writes all do never terminates the process, and each
of its writes keeps that law; and no other run has only writes that keep it. -/
theorem write_capacity_iff (initial : Container) (oflags : Nat) (ec : ErrorCode)
    (hw : hasFlag oflags writeOnly = true) :
    (∀ calls s, Machine.run step (start initial oflags ec) calls = some s →
      ∀ bytes, WriteLaw s bytes ↔ GuardAgrees s bytes) ∧
    ∀ calls,
      (Machine.Along step (OfWrite WriteLaw) (start initial oflags ec) calls ↔
        Machine.Along step (OfWrite GuardAgrees) (start initial oflags ec) calls) ∧
      (Machine.Along step (OfWrite GuardAgrees) (start initial oflags ec) calls →
        (Machine.run step (start initial oflags ec) calls).isSome) := by
  have keeps : ∀ s call t, Law initial oflags s → step s call = some t → Law initial oflags t :=
    fun _ _ _ hs hst => hs.step hst
  refine ⟨?_, fun calls => ⟨?_, ?_⟩⟩
  · intro calls s hrun bytes
    have h : Law initial oflags s := Machine.run_keeps keeps (.start _ _ _) hrun
    exact h.write_law_iff hw
  · refine Machine.along_congr keeps (fun s call hs => ?_) (.start initial oflags ec)
    cases call with
    | read n => rfl
    | write bytes => exact hs.write_law_iff hw
  · exact Machine.Along.run_isSome keeps (fun s call hs => hs.isSome_step hw) (.start _ _ _)

/-- The law for the next write after the calls of `mixed`. -/
theorem write_capacity_mixed :
    WriteLaw mixedEnd [1, 2, 3] ∧ WriteLaw mixedEnd (List.replicate 11 0) := by
  obtain ⟨hlaw, -⟩ := write_capacity_iff small (readOnly ||| writeOnly) .clear rfl
  have hrun : Machine.run step (start small (readOnly ||| writeOnly) .clear) mixed =
      some mixedEnd := by
    decide +kernel
  exact ⟨(hlaw mixed mixedEnd hrun _).mpr (.inl (by decide)),
    (hlaw mixed mixedEnd hrun _).mpr (.inr (by decide))⟩

/-- A container that is full, with nothing read yet: one more byte passes the guard, and the
process is terminated. -/
theorem not_write_capacity_full :
    ∃ full : Container, full.bytes.length = full.maxSize ∧
      (Buffer.ofContainer writeOnly).write full [7] .clear = .terminate ∧
      step (start full writeOnly .clear) (.write [7]) = none ∧
      ¬ WriteLaw (start full writeOnly .clear) [7] := by
  have hguard : ¬ GuardAgrees (start ⟨[1, 2], 2, by decide, by decide⟩ writeOnly .clear) [7] := by
    simp [GuardAgrees, start, Buffer.ofContainer]
  have hstart := Law.start ⟨[1, 2], 2, by decide, by decide⟩ writeOnly .clear
  refine ⟨⟨[1, 2], 2, by decide, by decide⟩, rfl, ?_, hstart.terminates rfl hguard, ?_⟩
  · exact Buffer.write_terminates rfl rfl (by decide) (by decide)
  · rwa [hstart.write_law_iff rfl]

end BufferStream

end PfsIo
