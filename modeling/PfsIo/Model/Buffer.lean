import PfsIo.Model.UnixFile

/-!
# Memory buffers

`buffer.hpp`: a device over a container that its owner keeps. Dereferencing a null
container pointer and leaving a `noexcept` function by an exception are results of
their own, `nullDeref` and `terminate`.
-/

namespace PfsIo

/-- A contiguous container; its maximal size is within `ptrdiff_t`. -/
structure Container where
  bytes : Bytes
  maxSize : Nat
  fits : bytes.length ≤ maxSize
  bounded : maxSize ≤ ssizeMax
  deriving DecidableEq

/-- What a call of a `noexcept` member can end with. -/
inductive Outcome (α : Type*) where
  | returns (a : α)
  | nullDeref
  | terminate

/-- The members of a buffer; `attached` tells whether `_c` is not null. -/
structure Buffer where
  attached : Bool
  oflags : Nat
  pos : Nat
  deriving DecidableEq, Repr

namespace Buffer

/-- A default constructed buffer. -/
def default : Buffer := ⟨false, notOpen, 0⟩

/-- The constructor from a container. -/
def ofContainer (oflags : Nat) : Buffer := ⟨true, oflags, 0⟩

def close (b : Buffer) : Buffer := { b with attached := false, oflags := notOpen }

def opened (b : Buffer) : Bool := b.attached

def hasPendingData (b : Buffer) (c : Container) : Outcome Bool :=
  if b.attached then .returns (decide (toSizeT ((c.bytes.length : Int) - b.pos) > 0))
  else .nullDeref

structure Read where
  rc : Int
  ec : ErrorCode
  bytes : Bytes
  buffer : Buffer

def Read.tally (r : Read) : Library.Tally UInt8 := ⟨r.rc, r.bytes⟩

def read (b : Buffer) (c : Container) (n : Nat) (ec : ErrorCode) : Outcome Read :=
  if !hasFlag b.oflags readOnly then
    .returns ⟨-1, makeErrorCode .invalidArgument, [], b⟩
  else if !b.attached then .nullDeref
  else if b.pos ≥ c.bytes.length then .returns ⟨0, ec, [], b⟩
  else
    let n := min n (toSizeT ((c.bytes.length : Int) - b.pos))
    .returns ⟨toSsizeT n, ec, (c.bytes.drop b.pos).take n, { b with pos := toSizeT (b.pos + n) }⟩

structure Write where
  rc : Int
  ec : ErrorCode
  container : Container

/-- `append` throws when the result would be longer than `maxSize`. -/
def append (c : Container) (bytes : Bytes) : Option Container :=
  if h : (c.bytes ++ bytes).length ≤ c.maxSize then
    some ⟨c.bytes ++ bytes, c.maxSize, h, c.bounded⟩
  else none

def write (b : Buffer) (c : Container) (bytes : Bytes) (ec : ErrorCode) : Outcome Write :=
  if !hasFlag b.oflags writeOnly then .returns ⟨-1, makeErrorCode .invalidArgument, c⟩
  else if !b.attached then .nullDeref
  else if bytes.length > toSizeT ((c.maxSize : Int) - b.pos) then
    .returns ⟨-1, makeErrorCode .deviceTooLarge, c⟩
  else
    match append c bytes with
    | some c => .returns ⟨toSsizeT bytes.length, ec, c⟩
    | none => .terminate

variable {b : Buffer} {c : Container} {n : Nat} {bytes : Bytes} {ec : ErrorCode}

/-- The position a read leaves, when the container was not shrunk behind its back. -/
theorem read_spec (hr : hasFlag b.oflags readOnly = true) (ha : b.attached = true)
    (hpos : b.pos ≤ c.bytes.length) :
    let k := min n (c.bytes.length - b.pos)
    b.read c n ec = .returns ⟨k, ec, (c.bytes.drop b.pos).take k, { b with pos := b.pos + k }⟩ := by
  have hc := c.fits
  have hb := c.bounded
  unfold ssizeMax at hb
  by_cases hend : b.pos ≥ c.bytes.length
  · have hk : c.bytes.length - b.pos = 0 := by omega
    obtain ⟨attached, oflags, pos⟩ := b
    simp_all [read]
  · have hsub : toSizeT ((c.bytes.length : Int) - b.pos) = c.bytes.length - b.pos :=
      toSizeT_sub hpos (by omega)
    have hrc : toSsizeT (min n (c.bytes.length - b.pos) : Nat) =
        (min n (c.bytes.length - b.pos) : Nat) := toSsizeT_of_le (by unfold ssizeMax; omega)
    have hadd : toSizeT ((b.pos : Int) + (min n (c.bytes.length - b.pos) : Nat)) =
        b.pos + min n (c.bytes.length - b.pos) := by
      rw [← Int.natCast_add]
      exact toSizeT_of_le (by unfold ssizeMax; omega)
    simp only [read, hr, ha, hend, hsub, hrc, hadd, Bool.not_true, Bool.false_eq_true, if_false]

theorem read_rejected (hr : hasFlag b.oflags readOnly = false) :
    b.read c n ec = .returns ⟨-1, makeErrorCode .invalidArgument, [], b⟩ := by
  simp [read, hr]

theorem write_rejected (hw : hasFlag b.oflags writeOnly = false) :
    b.write c bytes ec = .returns ⟨-1, makeErrorCode .invalidArgument, c⟩ := by
  simp [write, hw]

/-- A write that fits is appended, when the position is within the container. -/
theorem write_spec (hw : hasFlag b.oflags writeOnly = true) (ha : b.attached = true)
    (hpos : b.pos ≤ c.bytes.length) (hfit : (c.bytes ++ bytes).length ≤ c.maxSize) :
    b.write c bytes ec =
      .returns ⟨bytes.length, ec, ⟨c.bytes ++ bytes, c.maxSize, hfit, c.bounded⟩⟩ := by
  have hb := c.bounded
  unfold ssizeMax at hb
  have hlen : c.bytes.length + bytes.length ≤ c.maxSize := by simpa using hfit
  have hsub : toSizeT ((c.maxSize : Int) - b.pos) = c.maxSize - b.pos :=
    toSizeT_sub (by omega) (by omega)
  have hguard : ¬ bytes.length > c.maxSize - b.pos := by omega
  have hrc : toSsizeT bytes.length = bytes.length := toSsizeT_of_le (by unfold ssizeMax; omega)
  simp only [write, hw, ha, hsub, hguard, append, hfit, hrc, Bool.not_true, Bool.false_eq_true,
    if_false, dif_pos]

/-- Whatever a write returns, the container was left alone, or the mode allows the write and the
container has grown by the message. -/
theorem write_returns {w : Write} (h : b.write c bytes ec = .returns w) :
    (w.rc = -1 ∧ w.container = c) ∨ (hasFlag b.oflags writeOnly = true ∧
      w.rc = bytes.length ∧ w.container.bytes = c.bytes ++ bytes) := by
  have hb := c.bounded
  unfold ssizeMax at hb
  unfold write append at h
  split at h
  · cases h
    exact .inl ⟨rfl, rfl⟩
  · next hmode =>
    split at h
    · cases h
    · split at h
      · cases h
        exact .inl ⟨rfl, rfl⟩
      · split at h
        · next c' happ =>
          split at happ
          · next hfit =>
            obtain rfl := Option.some.inj happ
            obtain rfl := Outcome.returns.inj h
            have hlen : c.bytes.length + bytes.length ≤ c.maxSize := by simpa using hfit
            have hrc : toSsizeT bytes.length = bytes.length :=
              toSsizeT_of_le (by unfold ssizeMax; omega)
            exact .inr ⟨by simpa using hmode, hrc, rfl⟩
          · cases happ
        · cases h

end Buffer

end PfsIo
