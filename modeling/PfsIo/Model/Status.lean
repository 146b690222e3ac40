import Mathlib.Data.Nat.Bitwise
import PfsIo.Model.UnixSocket

/-!
# The status flags of descriptors

The access mode and the blocking mode that a descriptor gets from the call that makes it, and what
`fcntl` and a read of no bytes tell of them. They stay with the descriptor until it is closed.

## Main definitions

* `Os.status` — the flags of the descriptors made by the logged calls.
* `Os.getFlags`, `Os.probe` — what `file::open_mode` asks the kernel.
* `modeOf` — the open mode that it makes of them.
-/

namespace PfsIo

/-- The answer for a descriptor that is not open, or not open for what is asked. -/
def badDescriptor : ℕ+ := ⟨Errno.ebadf, Nat.succ_pos 8⟩

/-- The descriptor that a call has made, with its flags: those of `::open` but for the flags that
only matter while it runs, and both directions for a socket. -/
def Call.makes : Call → Option (Int × Nat)
  | .openFile _ oflags _ rc => some (rc, oflags &&& (File.oAccmode ||| File.oNonblock))
  | .socket _ socktype _ rc => some (rc, File.oRdwr ||| (socktype &&& sockNonblock))
  | .accept _ rc => some (rc, File.oRdwr)
  | _ => none

/-- The flags of all descriptors after one more call. -/
def Call.setStatus (status : Int → Option Nat) (call : Call) : Int → Option Nat :=
  match call with
  | .close fd _ _ => Function.update status fd none
  | call =>
    match call.makes with
    | some (fd, flags) => if 0 ≤ fd then Function.update status fd (some flags) else status
    | none => status

namespace Os

def status (os : Os) : Int → Option Nat := os.log.foldl Call.setStatus fun _ => none

/-- `::fcntl` for the flags. -/
def getFlags (os : Os) (fd : Int) : Int :=
  match os.status fd with
  | some flags => flags
  | none => -1

/-- A read of no bytes on a regular file or a socket: it fails unless the descriptor is open for
reading. -/
def probe (os : Os) (fd : Int) : Except ℕ+ Nat :=
  match os.status fd with
  | some flags =>
    if flags &&& File.oAccmode = File.oWronly then .error badDescriptor else .ok 0
  | none => .error badDescriptor

end Os

/-- What `file::open_mode` makes of the flags of an open descriptor. -/
def modeOf (flags : Nat) : Nat :=
  File.openMode ⟨0⟩ flags
    (if flags &&& File.oAccmode = File.oWronly then .error badDescriptor else .ok 0)

/-- The open mode of a file opened with the given flags: one that is opened neither for reading nor
for writing can be read. -/
def fileMode (oflags : Nat) : Nat :=
  (if hasFlag oflags writeOnly then
      if hasFlag oflags readOnly then readOnly ||| writeOnly else writeOnly
    else readOnly) ||| if hasFlag oflags nonBlocking then nonBlocking else notOpen

/-- The open mode of a socket. -/
def socketMode (nonblocking : Bool) : Nat :=
  readOnly ||| writeOnly ||| if nonblocking then nonBlocking else notOpen

/-- Flags and mode go together. -/
theorem modeOf_nativeFlags (oflags : Nat) :
    modeOf (File.nativeFlags oflags &&& (File.oAccmode ||| File.oNonblock)) = fileMode oflags := by
  unfold File.nativeFlags fileMode
  cases hasFlag oflags writeOnly <;> cases hasFlag oflags readOnly <;>
    cases hasFlag oflags nonBlocking <;> cases hasFlag oflags truncate <;> decide

theorem modeOf_socket (socktype : Nat) :
    modeOf (File.oRdwr ||| (socktype &&& sockNonblock)) =
      socketMode (hasFlag socktype sockNonblock) := by
  have hbit : socktype &&& sockNonblock = (socktype.testBit 11).toNat * 2 ^ 11 :=
    Nat.and_two_pow socktype 11
  unfold hasFlag
  rw [hbit]
  cases socktype.testBit 11 <;> decide

theorem modeOf_accept : modeOf File.oRdwr = socketMode false := by decide

section Status

variable (os : Os)

theorem openMode_of_neg {h : DeviceHandle} (hfd : h.fd < 0) (status : Int)
    (probe : Except ℕ+ Nat) : File.openMode h status probe = notOpen := by
  simp [File.openMode, hfd]

/-- What is reported for an open descriptor depends on its flags alone. -/
theorem openMode_of_status {h : DeviceHandle} (hfd : 0 ≤ h.fd) {flags : Nat}
    (hstatus : os.status h.fd = some flags) :
    File.openMode h (os.getFlags h.fd) (os.probe h.fd) = modeOf flags := by
  have hneg : ¬ h.fd < 0 := Int.not_lt.mpr hfd
  simp only [File.openMode, modeOf, Os.getFlags, Os.probe, hstatus, hneg, if_false]
  rfl

theorem status_append {os os' : Os} {calls : List Call} (h : os'.log = os.log ++ calls) :
    os'.status = calls.foldl Call.setStatus os.status := by
  rw [Os.status, Os.status, h, List.foldl_append]

theorem status_newFd_ok (call : Int → Call) (a : Alloc) :
    (os.newFd call (.ok a)).os.status = Call.setStatus os.status (call (a.pick os.opened)) :=
  status_append (Os.log_newFd os call (.ok a))

theorem status_check (call : Int → Call) (r : Reply)
    (h : ∀ status rc, Call.setStatus status (call rc) = status) :
    (os.check call r).os.status = os.status :=
  (status_append (Os.log_check os call r)).trans (h os.status _)

end Status

end PfsIo
