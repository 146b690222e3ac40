import Mathlib.Data.List.Basic
import PfsIo.Library.Patch

/-!
# Machine integers, bytes and C strings

The integer conversions of the target (`int` of 32 bits, `size_t` and `ssize_t` of
64 bits, two's complement) and the few memory operations of the source.
-/

namespace PfsIo

/-- Contents of buffers, names and socket addresses. -/
abbrev Bytes := List UInt8

/-- The largest `int`. -/
def intMax : Nat := 2147483647

/-- The largest `ssize_t`. -/
def ssizeMax : Nat := 9223372036854775807

/-- Conversion to `int`. -/
def toInt (x : Int) : Int := (x + 2147483648) % 4294967296 - 2147483648

/-- Conversion to `ssize_t`. -/
def toSsizeT (x : Int) : Int :=
  (x + 9223372036854775808) % 18446744073709551616 - 9223372036854775808

/-- Conversion to `size_t`. -/
def toSizeT (x : Int) : Nat := (x % 18446744073709551616).toNat

theorem toInt_of_le {x : Nat} (h : x ≤ intMax) : toInt x = x := by
  unfold toInt intMax at *
  omega

theorem toInt_le (x : Int) : toInt x ≤ intMax := by
  unfold toInt intMax
  omega

theorem toSsizeT_of_le {x : Nat} (h : x ≤ ssizeMax) : toSsizeT x = x := by
  unfold toSsizeT ssizeMax at *
  omega

theorem toSizeT_of_le {x : Nat} (h : x ≤ ssizeMax) : toSizeT x = x := by
  unfold toSizeT ssizeMax at *
  omega

/-- `size_t` subtraction without wrap-around. -/
theorem toSizeT_sub {x y : Nat} (h : y ≤ x) (hx : x < 18446744073709551616) :
    toSizeT ((x : Int) - y) = x - y := by
  unfold toSizeT
  omega

/-- `memcpy` of all of `src` to the beginning of `dst`, within the bounds of `dst`. -/
def memcpy (dst src : Bytes) : Bytes := src.take dst.length ++ dst.drop src.length

@[simp] theorem length_memcpy (dst src : Bytes) : (memcpy dst src).length = dst.length := by
  simp [memcpy]
  omega

@[simp] theorem memcpy_nil (dst : Bytes) : memcpy dst [] = dst := by
  simp [memcpy]

theorem memcpy_of_length_eq {dst src : Bytes} (h : src.length = dst.length) :
    memcpy dst src = src := by
  simp [memcpy, h, List.take_of_length_le]

theorem take_memcpy {dst src : Bytes} (h : src.length ≤ dst.length) :
    (memcpy dst src).take src.length = src := by
  simp [memcpy, List.take_of_length_le h]

theorem patch_eq_memcpy {dst src : Bytes} (h : src.length ≤ dst.length) :
    Library.patch dst 0 src = memcpy dst src := by
  simp [Library.patch, memcpy, List.take_of_length_le h]

/-- The bytes of a C string: up to the first NUL. -/
def cStr (bytes : Bytes) : Bytes := bytes.takeWhile (· != 0)

theorem cStr_append {bytes : Bytes} (h : 0 ∉ bytes) (more : Bytes) :
    cStr (bytes ++ more) = bytes ++ cStr more := by
  refine List.takeWhile_append_of_pos fun b hb => ?_
  rw [bne_iff_ne]
  rintro rfl
  exact h hb

@[simp] theorem cStr_zero_cons (more : Bytes) : cStr (0 :: more) = [] := rfl

theorem cStr_of_not_mem {bytes : Bytes} (h : 0 ∉ bytes) : cStr bytes = bytes := by
  simpa [cStr] using cStr_append h []

end PfsIo
