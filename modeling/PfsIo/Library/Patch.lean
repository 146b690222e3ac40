import Mathlib.Data.List.Basic

/-!
# Writing over a part of a list

A block of memory as a list of cells, and a write of some cells from a position on. The
write has its bounds checked: it has a result when all cells to write are cells of the
block.

## Main definitions

* `patch` — the block after the write.
* `patch?` — the write with its bounds checked.
* `field` — the cells of a part of the block.

## Main results

* `getElem?_patch` — the cells after a write.
* `field_patch_self`, `field_patch_of_disjoint` — a field written, and one beside it.
-/

namespace Library

variable {α : Type*} {xs ys zs : List α} {i : Nat}

/-- `ys` written over `xs` from position `i` on. -/
def patch (xs : List α) (i : Nat) (ys : List α) : List α :=
  xs.take i ++ (ys ++ xs.drop (i + ys.length))

/-- The write, if it stays within `xs`. -/
def patch? (xs : List α) (i : Nat) (ys : List α) : Option (List α) :=
  if i + ys.length ≤ xs.length then some (patch xs i ys) else none

/-- The `n` cells from position `i` on. -/
def field (xs : List α) (i n : Nat) : List α := (xs.drop i).take n

theorem patch?_of_le (h : i + ys.length ≤ xs.length) : patch? xs i ys = some (patch xs i ys) := by
  simp [patch?, h]

theorem patch?_of_lt (h : xs.length < i + ys.length) : patch? xs i ys = none := by
  simp [patch?, h]

theorem length_patch (h : i + ys.length ≤ xs.length) : (patch xs i ys).length = xs.length := by
  grind [patch]

/-- A write changes the cells it writes and no others. -/
theorem getElem?_patch (h : i + ys.length ≤ xs.length) (j : Nat) :
    (patch xs i ys)[j]? = if i ≤ j ∧ j < i + ys.length then ys[j - i]? else xs[j]? := by
  have htake : (xs.take i).length = i := List.length_take_of_le (by omega)
  rcases Nat.lt_or_ge j i with hlt | hge
  · rw [patch, List.getElem?_append_left (by omega)]
    grind
  · rw [patch, List.getElem?_append_right (by omega), htake]
    grind

theorem getElem?_field {i n : Nat} (j : Nat) :
    (field xs i n)[j]? = if j < n then xs[i + j]? else none := by
  grind [field]

/-- What was written is read back. -/
theorem field_patch_self (h : i + ys.length ≤ xs.length) :
    field (patch xs i ys) i ys.length = ys := by
  apply List.ext_getElem?
  intro j
  rw [getElem?_field, getElem?_patch h]
  grind

theorem field_patch_of_disjoint (h : i + ys.length ≤ xs.length) {j n : Nat}
    (hdisjoint : j + n ≤ i ∨ i + ys.length ≤ j) :
    field (patch xs i ys) j n = field xs j n := by
  apply List.ext_getElem?
  intro k
  rw [getElem?_field, getElem?_field, getElem?_patch h]
  grind

/-- A field does not reach into what follows. -/
theorem field_append {j n : Nat} (h : j + n ≤ xs.length) (ys : List α) :
    field (xs ++ ys) j n = field xs j n := by
  apply List.ext_getElem?
  intro k
  rw [getElem?_field, getElem?_field]
  grind

/-- At the beginning of cleared memory. -/
theorem patch_replicate (n : Nat) (a : α) (ys : List α) :
    patch (List.replicate n a) 0 ys = ys ++ List.replicate (n - ys.length) a := by
  simp [patch]

/-- A single cell. -/
theorem patch_singleton (h : i < xs.length) (a : α) : patch xs i [a] = xs.set i a := by
  rw [List.set_eq_take_append_cons_drop, if_pos h]
  rfl

end Library
