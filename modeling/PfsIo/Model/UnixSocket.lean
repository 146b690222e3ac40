import PfsIo.Library.Loop
import PfsIo.Model.UnixFile

/-!
# Sockets

`unix_socket.hpp`: the functions on an open socket (`socket`, and `udp` for datagrams),
host addresses, and local sockets. The write loops are loops driven by the kernel's
answers; a write has no result while the answers given do not end its loop.

## Main definitions

* `Socket.writeBody`, `Socket.writeLoop`, `Socket.write` — the send loop of stream sockets.
* `Udp.writeLoop`, `Udp.write`, `Udp.read` — its copy for datagrams, and the read.
* `Local.open_`, `Local.openServer`, `Local.accept` — local sockets.
-/

namespace PfsIo

open Library Library.Transfer

/-- The union of the two socket address structures: 28 bytes. -/
structure HostAddress where
  bytes : Bytes
  size : bytes.length = 28
  deriving DecidableEq

namespace HostAddress

/-- A default constructed address. -/
def zero : HostAddress := ⟨List.replicate 28 0, by simp⟩

/-- `memcpy` to the beginning of the union. -/
def memcpy (a : HostAddress) (src : Bytes) : HostAddress :=
  ⟨PfsIo.memcpy a.bytes src, by simp [a.size]⟩

/-- `swap (host_address &, host_address &)`, through a temporary. -/
def swap (a b : HostAddress) : HostAddress × HostAddress :=
  let tmp := zero.memcpy a.bytes
  (a.memcpy b.bytes, b.memcpy tmp.bytes)

theorem memcpy_bytes (a b : HostAddress) : a.memcpy b.bytes = b := by
  cases b with
  | mk bytes size => simp [memcpy, memcpy_of_length_eq (size.trans a.size.symm)]

/-- A short copy into a cleared union. -/
theorem bytes_zero_memcpy {src : Bytes} (h : src.length ≤ 28) :
    (zero.memcpy src).bytes = src ++ List.replicate (28 - src.length) 0 :=
  (patch_eq_memcpy (by rwa [zero.size])).symm.trans (patch_replicate 28 0 src)

@[simp] theorem swap_eq (a b : HostAddress) : a.swap b = (b, a) := by
  simp [swap, memcpy_bytes]

@[simp] theorem memcpy_nil (a : HostAddress) : a.memcpy [] = a := by
  cases a
  simp [memcpy]

end HostAddress

/-- The answer of `send`: an `errno`, or the room there was, of which as much is used
as there are bytes. A non-empty range is accepted up to at least its first byte. -/
abbrev SendReply := Except ℕ+ ℕ+

/-- The answer of `recv`: an `errno`, or bytes of which at most the requested number
is stored. -/
abbrev RecvReply := Except ℕ+ Bytes

namespace Socket

/-- `socket::has_pending_data`: peek one byte. -/
def hasPendingData (reply : RecvReply) : Bool :=
  let n : Int := match reply with
    | .ok bytes => (bytes.take 1).length
    | .error _ => -1
  decide (n > 0)

/-- `socket::read`. The second operand of the condition does not depend on the result. -/
def read (plat : Platform) (n : Nat) (reply : RecvReply) (errno : Nat) (ec : ErrorCode) :
    ReadResult :=
  let rc : Int := match reply with
    | .ok bytes => (bytes.take n).length
    | .error _ => -1
  let errno : Nat := match reply with
    | .ok _ => errno
    | .error e => e
  let stored : Bytes := match reply with
    | .ok bytes => bytes.take n
    | .error _ => []
  let rc := if (decide (rc < 0) && errno == plat.eagain)
      || (plat.eagain != plat.ewouldblock && errno == plat.ewouldblock) then 0 else rc
  let ec := if rc < 0 then getLastSystemError plat errno else ec
  ⟨rc, ec, errno, stored⟩

section Read

variable (plat : Platform) (n : Nat) (errno : Nat) (ec : ErrorCode)

/-- A read that has received bytes. -/
theorem read_ok (bytes : Bytes) :
    read plat n (.ok bytes) errno ec =
      ⟨if plat.eagain ≠ plat.ewouldblock ∧ errno = plat.ewouldblock then 0
        else (bytes.take n).length, ec, errno, bytes.take n⟩ := by
  have hlen : ¬ ((bytes.take n).length : Int) < 0 := by omega
  by_cases hstale : plat.eagain ≠ plat.ewouldblock ∧ errno = plat.ewouldblock
  · obtain ⟨hne, herrno⟩ := hstale
    simp [read, hne, herrno]
  · have hcode : (plat.eagain != plat.ewouldblock && errno == plat.ewouldblock) = false := by
      simpa using hstale
    simp only [read, hlen, hcode, hstale, decide_false, Bool.false_and, Bool.or_false,
      Bool.false_eq_true, if_false]

/-- A read that has failed does not look at what `errno` was before. -/
theorem read_error (e : ℕ+) :
    read plat n (.error e) errno ec =
      if plat.wouldBlock e then ⟨0, ec, e, []⟩ else ⟨-1, getLastSystemError plat e, e, []⟩ := by
  cases h : plat.wouldBlock e with
  | true =>
    simp only [Platform.wouldBlock] at h
    simp [read, h]
  | false =>
    simp only [Platform.wouldBlock] at h
    simp [read, h]

end Read

/-- The variables of the send loop: `total_written` is an `int`, the remaining length
`n` a `size_t`. `requests` are the ranges handed to the kernel so far. -/
structure WriteState where
  totalWritten : Int
  n : Nat
  errno : Nat
  requests : List Request
  deriving DecidableEq, Repr

/-- One iteration of the send loop, for the answer of the kernel to its call. -/
def writeBody (plat : Platform) (s : WriteState) (answer : Except ℕ+ Nat) : Flow WriteState :=
  let written : Int := match answer with
    | .ok k => k
    | .error _ => -1
  let errno : Nat := match answer with
    | .ok _ => s.errno
    | .error e => e
  let s := { s with
    errno := errno
    requests := s.requests ++ [⟨s.totalWritten, s.n, written.toNat⟩] }
  if written < 0 then
    if plat.wouldBlock errno then .next s
    else .leave { s with totalWritten := -1 }
  else
    .next { s with
      totalWritten := toInt (s.totalWritten + written)
      n := toSizeT ((s.n : Int) - written) }

/-- The variables before the loop. -/
def WriteState.start (n errno : Nat) : WriteState := ⟨0, n, errno, []⟩

/-- What `send` answers for the `n` bytes it is given. -/
def sendAnswer (n : Nat) (reply : SendReply) : Except ℕ+ Nat :=
  reply.map fun room => min (room : Nat) n

def writeLoop (plat : Platform) : Loop WriteState SendReply where
  guard s := s.n != 0
  body s reply := writeBody plat s (sendAnswer s.n reply)

/-- What follows the loop. -/
def writeResult (plat : Platform) (ec : ErrorCode) (s : WriteState) : WriteResult where
  rc := s.totalWritten
  ec := if s.totalWritten < 0 then getLastSystemError plat s.errno else ec
  errno := s.errno
  requests := s.requests

/-- `socket::write` of `n` bytes, with the answers it did not need. -/
def write (plat : Platform) (n errno : Nat) (ec : ErrorCode) (replies : List SendReply) :
    Option (WriteResult × List SendReply) :=
  ((writeLoop plat).run (.start n errno) replies).map fun r => (writeResult plat ec r.1, r.2)

/-- `socket::close`; the result carries the handle afterwards and the returned error code. -/
def close (plat : Platform) (h : DeviceHandle) (forceShutdown : Bool) (os : Os)
    (r : CloseReplies) : Ret DeviceHandle :=
  if h.fd > 0 then
    let os := if forceShutdown then (os.check (.shutdown h.fd) r.shutdown).os else os
    let c := os.close h.fd r.close
    ⟨⟨-1⟩, if c.rc < 0 then getLastSystemError plat c.os.errno else .clear, c.os⟩
  else ⟨⟨-1⟩, .clear, os⟩

section Body

variable (plat : Platform) (s : WriteState)

theorem writeBody_ok (k : Nat) : writeBody plat s (.ok k) = .next
    { s with
      requests := s.requests ++ [⟨s.totalWritten, s.n, k⟩]
      totalWritten := toInt (s.totalWritten + k)
      n := toSizeT ((s.n : Int) - k) } := by
  have hk : ¬ (k : Int) < 0 := by omega
  simp [writeBody, hk]

theorem writeBody_wouldBlock {e : ℕ+} (h : plat.wouldBlock e = true) :
    writeBody plat s (.error e) = .next
      { s with errno := e, requests := s.requests ++ [⟨s.totalWritten, s.n, 0⟩] } := by
  simp [writeBody, h]

theorem writeBody_fatal {e : ℕ+} (h : plat.wouldBlock e = false) :
    writeBody plat s (.error e) = .leave
      { s with
        errno := e
        requests := s.requests ++ [⟨s.totalWritten, s.n, 0⟩]
        totalWritten := -1 } := by
  simp [writeBody, h]

variable {plat s} {t : WriteState} {answer : Except ℕ+ Nat}

/-- An iteration goes on after a success, or when the call would block. -/
theorem writeBody_next (h : writeBody plat s answer = .next t) :
    (∃ k : Nat, answer = .ok k ∧ t = { s with
      requests := s.requests ++ [⟨s.totalWritten, s.n, k⟩]
      totalWritten := toInt (s.totalWritten + k)
      n := toSizeT ((s.n : Int) - k) }) ∨
    ∃ e : ℕ+, answer = .error e ∧ plat.wouldBlock e = true ∧
      t = { s with errno := e, requests := s.requests ++ [⟨s.totalWritten, s.n, 0⟩] } := by
  cases answer with
  | ok k => exact .inl ⟨k, rfl, (Flow.next.inj ((writeBody_ok plat s k).symm.trans h)).symm⟩
  | error e =>
    cases he : plat.wouldBlock e with
    | true =>
      have ht := Flow.next.inj ((writeBody_wouldBlock plat s he).symm.trans h)
      exact .inr ⟨e, rfl, he, ht.symm⟩
    | false => exact absurd ((writeBody_fatal plat s he).symm.trans h) (by simp)

/-- The loop is left at any other error. -/
theorem writeBody_leave (h : writeBody plat s answer = .leave t) :
    ∃ e : ℕ+, answer = .error e ∧ plat.wouldBlock e = false ∧ t = { s with
      errno := e
      requests := s.requests ++ [⟨s.totalWritten, s.n, 0⟩]
      totalWritten := -1 } := by
  cases answer with
  | ok k => exact absurd ((writeBody_ok plat s k).symm.trans h) (by simp)
  | error e =>
    cases he : plat.wouldBlock e with
    | true => exact absurd ((writeBody_wouldBlock plat s he).symm.trans h) (by simp)
    | false =>
      have ht := Flow.leave.inj ((writeBody_fatal plat s he).symm.trans h)
      exact ⟨e, rfl, he, ht.symm⟩

end Body

end Socket

namespace Udp

/-- One `sendto`: the descriptor, the destination and the range of the message. -/
structure SendTo where
  fd : Int
  addr : Bytes
  request : Request
  deriving DecidableEq, Repr

/-- `udp::read`: the sender's address is stored within the `addrlen` bytes offered. -/
def read (plat : Platform) (paddr : HostAddress) (n : Nat) (reply : Except ℕ+ (Bytes × Bytes))
    (errno : Nat) (ec : ErrorCode) : ReadResult × HostAddress :=
  let addrlen : Nat := 0
  let paddr := match reply with
    | .ok (_, source) => paddr.memcpy (source.take addrlen)
    | .error _ => paddr
  (Socket.read plat n (reply.map Prod.fst) errno ec, paddr)

/-- The send loop for datagrams: `sendto` sends all of the range or fails. -/
def writeLoop (plat : Platform) : Loop Socket.WriteState Reply where
  guard s := s.n != 0
  body s reply := Socket.writeBody plat s (reply.map fun _ => s.n)

/-- What `udp::write` returns, the datagrams handed to the kernel, and the answers it
did not need. -/
structure WriteReport where
  result : WriteResult
  calls : List SendTo
  rest : List Reply

/-- `udp::write` of `n` bytes to the given address. -/
def write (plat : Platform) (h : DeviceHandle) (paddr : HostAddress) (n errno : Nat)
    (ec : ErrorCode) (replies : List Reply) : Option WriteReport :=
  ((writeLoop plat).run (.start n errno) replies).map fun r =>
    ⟨Socket.writeResult plat ec r.1, r.1.requests.map fun q => ⟨h.fd, paddr.bytes, q⟩, r.2⟩

end Udp

def afLocal : Nat := 1
def afInet : Nat := 2
def afInet6 : Nat := 10
def sockStream : Nat := 1
def sockDgram : Nat := 2
def sockNonblock : Nat := 0o4000

/-- `device_handle{}` for a negative descriptor, and else the handle of the descriptor. -/
def handleOf (fd : Int) : DeviceHandle := if fd < 0 then ⟨-1⟩ else ⟨fd⟩

theorem handleOf_of_nonneg {fd : Int} (h : 0 ≤ fd) : handleOf fd = ⟨fd⟩ := by
  simp [handleOf, Int.not_lt.mpr h]

theorem handleOf_pick (a : Alloc) (opened : Finset Int) :
    handleOf (a.pick opened) = ⟨a.pick opened⟩ :=
  handleOf_of_nonneg (a.nonneg opened)

namespace Local

/-- `sizeof (sun_path)`. -/
def sunPathSize : Nat := 108

/-- `sun_path` for a name: cleared, the name copied, and a NUL after it. -/
def sunPath (name : Bytes) : Bytes := (memcpy (List.replicate sunPathSize 0) name).set name.length 0

/-- The address structure for a name. -/
def sockaddrUn (name : Bytes) : Bytes := [1, 0] ++ sunPath name

def sockType (nonblocking : Bool) : Nat :=
  if nonblocking then sockStream ||| sockNonblock else sockStream

/-- Answers to the calls of `local::open`. -/
structure OpenReplies where
  socket : FdReply
  connect : Reply := .ok ()
  close : Reply := .ok ()

/-- `local::open`. The block before the clean-up is the `do ... while (false)`. -/
def open_ (plat : Platform) (os : Os) (name : Bytes) (nonblocking : Bool) (r : OpenReplies)
    (ec : ErrorCode) : Ret DeviceHandle :=
  let block : Ret DeviceHandle :=
    if sunPathSize < name.length + 1 then ⟨⟨-1⟩, makeErrorCode .invalidArgument, os⟩
    else
      let s := os.newFd (.socket afLocal (sockType nonblocking) 0) r.socket
      if s.rc < 0 then ⟨⟨-1⟩, getLastSystemError plat s.os.errno, s.os⟩
      else
        let c := s.os.check (.connect s.rc (sockaddrUn name)) r.connect
        if c.rc < 0 then ⟨⟨-1⟩, getLastSystemError plat c.os.errno, c.os⟩
        else ⟨⟨s.rc⟩, ec, c.os⟩
  if block.ec.isSet && decide (block.value.fd > 0) then
    ⟨⟨-1⟩, block.ec, (block.os.close block.value.fd r.close).os⟩
  else block

/-- Answers to the calls of `local::open_server`. -/
structure ServerReplies where
  socket : FdReply
  unlink : Reply := .ok ()
  bind : Reply := .ok ()
  listen : Reply := .ok ()
  close : Reply := .ok ()

/-- `local::open_server`. -/
def openServer (plat : Platform) (os : Os) (name : Bytes) (nonblocking : Bool)
    (maxPendingConnections : Int) (r : ServerReplies) (ec : ErrorCode) : Ret DeviceHandle :=
  let block : Ret Int :=
    if sunPathSize < name.length + 1 then ⟨-1, makeErrorCode .invalidArgument, os⟩
    else
      let s := os.newFd (.socket afLocal (sockType nonblocking) 0) r.socket
      if s.rc < 0 then ⟨s.rc, getLastSystemError plat s.os.errno, s.os⟩
      else
        let u := s.os.check (.unlink (cStr (sunPath name))) r.unlink
        let b := u.os.check (.bind s.rc (sockaddrUn name)) r.bind
        if b.rc < 0 then ⟨s.rc, getLastSystemError plat b.os.errno, b.os⟩
        else
          let l := b.os.check (.listen s.rc maxPendingConnections) r.listen
          if l.rc < 0 then ⟨s.rc, getLastSystemError plat l.os.errno, l.os⟩
          else ⟨s.rc, ec, l.os⟩
  if block.ec.isSet && decide (block.value > 0) then
    ⟨handleOf (-1), block.ec, (block.os.close block.value r.close).os⟩
  else ⟨handleOf block.value, block.ec, block.os⟩

/-- `local::accept`; the peer's address is not used. -/
def accept (plat : Platform) (os : Os) (h : DeviceHandle) (reply : FdReply) (ec : ErrorCode) :
    Ret DeviceHandle :=
  let c := os.newFd (.accept h.fd) reply
  ⟨handleOf c.rc, if c.rc < 0 then getLastSystemError plat c.os.errno else ec, c.os⟩

end Local

end PfsIo
