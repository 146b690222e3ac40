import PfsIo.Library.Decimal
import PfsIo.Model.UnixSocket

/-!
# Network devices

`netdevice.hpp`: the two ways to look up the MTU of an interface, by `ioctl` and in
`/sys/class/net`, and their combination. What the kernel answers is an argument.

## Main definitions

* `NetEnv` — the answers of `ioctl`, `access` and the file system.
* `extractInt` — `operator >>` of a stream into an `int`.
* `NetDevice.mtuAlternative0`, `NetDevice.mtuAlternative1`, `NetDevice.mtu` — the look-ups.
-/

namespace PfsIo

open Library

/-- `IFNAMSIZ`, the size of `ifr_name`. -/
def ifnamsiz : Nat := 16

/-- The modes of `access`. -/
inductive AccessMode where
  | fOk
  | rOk
  deriving DecidableEq

/-- The kernel, as far as the look-ups ask it. -/
structure NetEnv where
  /-- `ioctl` with `SIOCGIFMTU`, for the bytes of `ifr_name`: an `errno` or `ifr_mtu`. -/
  siocgifmtu : Bytes → Except ℕ+ Int
  access : Bytes → AccessMode → Reply
  /-- The contents of a file that can be opened. -/
  file : Bytes → Option Bytes

/-- Memory that is read before it is written: the bytes behind the name's string, and
`ifr_name` of the new `ifr`. -/
structure Leftover where
  behind : Bytes
  ifrName : Bytes
  behind_size : behind.length = ifnamsiz
  ifrName_size : ifrName.length = ifnamsiz

/-- White space of the default locale. -/
def isSpace (b : UInt8) : Bool := b == 32 || decide (9 ≤ b.toNat ∧ b.toNat ≤ 13)

/-- The nearest `int`. -/
def clampInt (x : Int) : Int := max (-2147483648) (min x 2147483647)

/-- `operator >>` into an `int` that has the value `result`: it stays where nothing but
white space is left, and is zero where no digit follows. -/
def extractInt (contents : Bytes) (result : Int) : Int :=
  match contents.dropWhile isSpace with
  | [] => result
  | sign :: rest =>
    let digits := (if sign == 45 || sign == 43 then rest else sign :: rest).takeWhile
      Decimal.isDigit
    clampInt (if sign == 45 then -Decimal.value digits else Decimal.value digits)

namespace NetDevice

/-- `ifr_name`: all bytes but the last are copied from the name and what is behind it,
whatever its length. -/
def ifrName (mem : Leftover) (name : Bytes) : Bytes :=
  memcpy mem.ifrName ((name ++ 0 :: mem.behind).take (ifnamsiz - 1))

/-- `netdevice::mtu_alternative0`. -/
def mtuAlternative0 (env : NetEnv) (mem : Leftover) (name : Bytes) (os : Os) (socket : FdReply)
    (close : Reply) : Sys :=
  let s := os.newFd (.socket afInet sockDgram 0) socket
  if s.rc < 0 then ⟨-1, s.os⟩
  else
    let r : Sys := match env.siocgifmtu (ifrName mem name) with
      | .error e => ⟨-1, { s.os with errno := e }⟩
      | .ok mtu => ⟨mtu, s.os⟩
    ⟨r.rc, (r.os.close s.rc close).os⟩

/-- `/sys/class/net/` -/
def sysClassNet : Bytes := [47, 115, 121, 115, 47, 99, 108, 97, 115, 115, 47, 110, 101, 116, 47]

/-- `/mtu` -/
def mtuSuffix : Bytes := [47, 109, 116, 117]

/-- `netdevice::mtu_alternative1`. -/
def mtuAlternative1 (env : NetEnv) (name : Bytes) : Int :=
  let path := sysClassNet
  if (env.access (cStr path) .fOk).isOk = false then -1
  else
    let path := path ++ name ++ mtuSuffix
    if (env.access (cStr path) .rOk).isOk = false then -1
    else
      match env.file (cStr path) with
      | none => -1
      | some contents => extractInt contents (-1)

/-- `netdevice::mtu`. -/
def mtu (env : NetEnv) (mem : Leftover) (name : Bytes) (os : Os) (socket : FdReply)
    (close : Reply) : Sys :=
  let result := mtuAlternative0 env mem name os socket close
  if result.rc < 0 then ⟨mtuAlternative1 env name, result.os⟩ else result

end NetDevice

end PfsIo
