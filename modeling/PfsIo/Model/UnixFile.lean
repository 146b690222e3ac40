import PfsIo.Library.Tally
import PfsIo.Library.Transfer
import PfsIo.Model.Kernel

/-!
# Files

`unix_file.hpp`: the device handle shared by all devices, and the file functions.
Results of reads and writes list the ranges of the caller's buffer that were handed
to the kernel with what it took of them, so that the bytes put into a stream are
known without a model of the stream.
-/

namespace PfsIo

open Library Library.Transfer

/-- `device_handle`; `-1` is the handle that is not open. -/
structure DeviceHandle where
  fd : Int := -1
  deriving DecidableEq, Repr

/-- `swap (device_handle &, device_handle &)`. -/
def DeviceHandle.swap (a b : DeviceHandle) : DeviceHandle × DeviceHandle := (⟨b.fd⟩, ⟨a.fd⟩)

@[simp] theorem DeviceHandle.swap_eq (a b : DeviceHandle) : a.swap b = (b, a) := rfl

/-- Flags of `open_mode_enum`. -/
def notOpen : Nat := 0
def readOnly : Nat := 0x0001
def writeOnly : Nat := 0x0002
def nonBlocking : Nat := 0x0004
def truncate : Nat := 0x0010

/-- Values of `permission`. -/
def ownerRead : Nat := 0x0001
def ownerWrite : Nat := 0x0002

/-- `flags & flag` as a condition. -/
def hasFlag (flags flag : Nat) : Bool := flags &&& flag != 0

/-- What a write reports, the state of `errno` after it, and what the kernel was given. -/
structure WriteResult where
  rc : Int
  ec : ErrorCode
  errno : Nat
  requests : List Request
  deriving DecidableEq, Repr

/-- The bytes of the message that the kernel accepted. -/
def WriteResult.accepted (r : WriteResult) (message : Bytes) : Bytes := gather message r.requests

/-- What a read reports, and the bytes stored in the caller's buffer. -/
structure ReadResult where
  rc : Int
  ec : ErrorCode
  errno : Nat
  bytes : Bytes
  deriving DecidableEq, Repr

/-- The count of a read, with the bytes that it has stored. -/
def ReadResult.tally (r : ReadResult) : Tally UInt8 := ⟨r.rc, r.bytes⟩

/-- Answers to the calls that closing a handle makes. -/
structure CloseReplies where
  shutdown : Reply := .ok ()
  fsync : Reply := .ok ()
  close : Reply := .ok ()

namespace File

/-- Permission bits of `permissions.hpp` with the mode bits they translate to. -/
def nativePerms : List (Nat × Nat) :=
  [(ownerRead, 0o400), (ownerWrite, 0o200), (4, 0o100), (8, 0o040), (16, 0o020), (32, 0o010),
    (64, 0o004), (128, 0o002), (256, 0o001)]

def toNativePerms (perms : Nat) : Nat :=
  nativePerms.foldl (fun result p => if hasFlag perms p.1 then result ||| p.2 else result) 0

def oWronly : Nat := 1
def oRdwr : Nat := 2
def oCreat : Nat := 0o100
def oTrunc : Nat := 0o1000
def oNonblock : Nat := 0o4000
def oNdelay : Nat := 0o4000
def oAccmode : Nat := 3

/-- The flags handed to `::open`. -/
def nativeFlags (oflags : Nat) : Nat :=
  (if hasFlag oflags writeOnly && hasFlag oflags readOnly then oRdwr ||| oCreat
    else if hasFlag oflags writeOnly then oWronly ||| oCreat
    else 0) |||
  (if hasFlag oflags nonBlocking then oNonblock else 0) |||
  (if hasFlag oflags truncate then oTrunc else 0)

/-- The mode handed to `::open`; zero when the call is made without one. -/
def nativeMode (oflags perms : Nat) : Nat :=
  if hasFlag oflags writeOnly then toNativePerms perms else 0

/-- The bits of an `int`. -/
def bits (x : Int) : Nat := (x % 4294967296).toNat

/-- `file::open_mode`: `status` is what `fcntl` returns, and `probe` the answer to the read of no
bytes. The result of `fcntl` is not tested, and a failure has all bits set. -/
def openMode (h : DeviceHandle) (status : Int) (probe : Except ℕ+ Nat) : Nat :=
  if h.fd < 0 then notOpen
  else
    let rc : Int := match probe with
      | .ok n => n
      | .error _ => -1
    let errno : Nat := match probe with
      | .ok _ => 0
      | .error e => e
    let result := notOpen
    let result := if rc ≥ 0 ∧ errno ≠ Errno.ebadf then result ||| readOnly else result
    let result :=
      if hasFlag (bits status) oRdwr then result ||| readOnly ||| writeOnly else result
    let result := if hasFlag (bits status) oWronly then result ||| writeOnly else result
    if hasFlag (bits status) oNonblock || hasFlag (bits status) oNdelay then result ||| nonBlocking
    else result

/-- `file::open`. -/
def open_ (plat : Platform) (os : Os) (path : Bytes) (oflags perms : Nat) (reply : FdReply)
    (ec : ErrorCode) : Ret DeviceHandle :=
  let c := os.newFd (.openFile (cStr path) (nativeFlags oflags) (nativeMode oflags perms)) reply
  if 0 ≤ c.rc then ⟨⟨c.rc⟩, ec, c.os⟩
  else ⟨⟨-1⟩, getLastSystemError plat c.os.errno, c.os⟩

/-- `file::close`; the result carries the handle afterwards and the returned error code. -/
def close (plat : Platform) (h : DeviceHandle) (os : Os) (r : CloseReplies) : Ret DeviceHandle :=
  if h.fd > 0 then
    let s := os.check (.fsync h.fd) r.fsync
    let ec := if s.rc ≠ 0 then getLastSystemError plat s.os.errno else .clear
    let c := s.os.close h.fd r.close
    let ec := if c.rc < 0 then getLastSystemError plat c.os.errno else ec
    ⟨⟨-1⟩, ec, c.os⟩
  else ⟨⟨-1⟩, .clear, os⟩

/-- `file::opened`. -/
def opened (h : DeviceHandle) : Bool := decide (h.fd ≥ 0)

/-- `file::read`: `::read` stores at most `n` bytes. -/
def read (plat : Platform) (n : Nat) (reply : Except ℕ+ Bytes) (errno : Nat) (ec : ErrorCode) :
    ReadResult :=
  match reply with
  | .ok bytes => ⟨(bytes.take n).length, ec, errno, bytes.take n⟩
  | .error e => ⟨-1, getLastSystemError plat e, e, []⟩

/-- `file::write`: one `::write`, which takes at most `n` bytes. -/
def write (plat : Platform) (n : Nat) (reply : Except ℕ+ Nat) (errno : Nat) (ec : ErrorCode) :
    WriteResult :=
  match reply with
  | .ok k => ⟨(min k n : Nat), ec, errno, [⟨0, n, min k n⟩]⟩
  | .error e => ⟨-1, getLastSystemError plat e, e, [⟨0, n, 0⟩]⟩

end File

end PfsIo
