import Mathlib.Data.PNat.Notation
import Mathlib.Data.PNat.Basic

/-!
# Error codes

`device.hpp`: the library's error conditions, `std::error_code` and the translation
of `errno`. The values of `EAGAIN` and `EWOULDBLOCK` are parameters, since the source
provides for platforms on which they differ; the other numbers are those of Linux.
-/

namespace PfsIo

/-- The platform's two codes for an operation that would block. -/
structure Platform where
  eagain : Nat
  ewouldblock : Nat

/-- Linux, where the two codes are the same. -/
def Platform.linux : Platform := ⟨11, 11⟩

/-- `errno == EAGAIN || (EAGAIN != EWOULDBLOCK && errno == EWOULDBLOCK)`. -/
def Platform.wouldBlock (plat : Platform) (errno : Nat) : Bool :=
  errno == plat.eagain || (plat.eagain != plat.ewouldblock && errno == plat.ewouldblock)

theorem Platform.wouldBlock_iff {plat : Platform} {errno : Nat} :
    plat.wouldBlock errno = true ↔ errno = plat.eagain ∨ errno = plat.ewouldblock := by
  simp only [Platform.wouldBlock, Bool.or_eq_true, Bool.and_eq_true, beq_iff_eq, bne_iff_ne]
  by_cases heq : plat.eagain = plat.ewouldblock
  · simp [heq]
  · simp [heq]

inductive Errc where
  | success
  | operationInProgress
  | connectionRefused
  | alreadyConnected
  | notConnected
  | tryAgain
  | badFileDescriptor
  | fileNotFound
  | hostNotFound
  | permissionDenied
  | invalidArgument
  | deviceTooLarge
  | stream
  | timedout
  deriving DecidableEq, Repr

/-- The enumerators count from `success = 0`. -/
def Errc.value : Errc → Nat
  | .success => 0
  | .operationInProgress => 1
  | .connectionRefused => 2
  | .alreadyConnected => 3
  | .notConnected => 4
  | .tryAgain => 5
  | .badFileDescriptor => 6
  | .fileNotFound => 7
  | .hostNotFound => 8
  | .permissionDenied => 9
  | .invalidArgument => 10
  | .deviceTooLarge => 11
  | .stream => 12
  | .timedout => 13

/-- The categories of the error codes in use; `io` is the library's own. -/
inductive Category where
  | system
  | generic
  | io
  deriving DecidableEq, Repr

/-- `std::error_code`. -/
structure ErrorCode where
  value : Nat
  category : Category
  deriving DecidableEq, Repr

/-- A default constructed error code. -/
def ErrorCode.clear : ErrorCode := ⟨0, .system⟩

/-- The conversion of an error code to `bool`. -/
def ErrorCode.isSet (ec : ErrorCode) : Bool := ec.value != 0

def makeErrorCode (e : Errc) : ErrorCode := ⟨e.value, .io⟩

namespace Errno

def eperm : Nat := 1
def enoent : Nat := 2
def ebadf : Nat := 9
def eacces : Nat := 13
def einval : Nat := 22
def eisconn : Nat := 106
def enotconn : Nat := 107
def etimedout : Nat := 110
def econnrefused : Nat := 111
def einprogress : Nat := 115

end Errno

/-- The default branch takes the value from `errno` itself and not from the argument. -/
def makeErrorCodeFromErrno (plat : Platform) (errno e : Nat) : ErrorCode :=
  if e = Errno.einval then makeErrorCode .invalidArgument
  else if e = Errno.econnrefused then makeErrorCode .connectionRefused
  else if e = Errno.einprogress then makeErrorCode .operationInProgress
  else if e = Errno.eisconn then makeErrorCode .alreadyConnected
  else if e = Errno.enotconn then makeErrorCode .notConnected
  else if e = plat.eagain then makeErrorCode .tryAgain
  else if e = Errno.ebadf then makeErrorCode .badFileDescriptor
  else if e = Errno.etimedout then makeErrorCode .timedout
  else if e = Errno.enoent then makeErrorCode .fileNotFound
  else if e = Errno.eacces ∨ e = Errno.eperm then makeErrorCode .permissionDenied
  else ⟨errno, .generic⟩

def getLastSystemError (plat : Platform) (errno : Nat) : ErrorCode :=
  makeErrorCodeFromErrno plat errno errno

@[simp] theorem ErrorCode.isSet_clear : ErrorCode.clear.isSet = false := rfl

@[simp] theorem isSet_makeErrorCode (e : Errc) :
    (makeErrorCode e).isSet = decide (e ≠ .success) := by
  cases e <;> rfl

/-- A failed system call always gives a set error code. -/
theorem isSet_getLastSystemError (plat : Platform) {errno : Nat} (h : errno ≠ 0) :
    (getLastSystemError plat errno).isSet = true := by
  have hgeneric : (⟨errno, .generic⟩ : ErrorCode).isSet = true := by simp [ErrorCode.isSet, h]
  simp only [getLastSystemError, makeErrorCodeFromErrno, apply_ite ErrorCode.isSet,
    isSet_makeErrorCode, hgeneric, ne_eq, reduceCtorEq, not_false_eq_true, decide_true, ite_self]

@[simp] theorem isSet_getLastSystemError_pnat (plat : Platform) (e : ℕ+) :
    (getLastSystemError plat e).isSet = true :=
  isSet_getLastSystemError plat e.ne_zero

end PfsIo
