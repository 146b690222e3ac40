import Mathlib.Data.List.Basic

/-!
# Transfers in pieces

A block of `n` items is offered to a receiver again and again: each request is a
range of the block, and some first part of it is taken. A sequence of requests
transfers `[a, b)` when each one starts right after what was taken before and
reaches to the end of the block. What is taken is then the part of the block
between `a` and `b`, each item once and in order.

## Main definitions

* `Transfer.Request` — the range offered and how much of it was taken.
* `Transfer.Transfers` — the requests transfer the block from one position to another.
* `Transfer.gather` — the items taken.
-/

namespace Library.Transfer

variable {β : Type*}

/-- The range `[offset, offset + length)` was offered, and its first `taken` items went. -/
structure Request where
  offset : Int
  length : Nat
  taken : Nat
  deriving DecidableEq, Repr

/-- From position `a`, the requests each offer the rest of a block of `n` items,
and together they reach position `b`. -/
def Transfers (n : Nat) : Nat → List Request → Nat → Prop
  | a, [], b => a = b
  | a, r :: rest, b =>
    r.offset = a ∧ a + r.length = n ∧ r.taken ≤ r.length ∧ Transfers n (a + r.taken) rest b

/-- The items of `items` that the requests took, in the order of the requests. -/
def gather (items : List β) (requests : List Request) : List β :=
  requests.flatMap fun r => (items.drop r.offset.toNat).take r.taken

@[simp] theorem gather_nil (items : List β) : gather items [] = [] := rfl

@[simp] theorem gather_cons (items : List β) (r : Request) (rest : List Request) :
    gather items (r :: rest) =
      (items.drop r.offset.toNat).take r.taken ++ gather items rest := rfl

variable {n a b c : Nat} {rs ss : List Request}

theorem Transfers.append (h : Transfers n a rs b) (g : Transfers n b ss c) :
    Transfers n a (rs ++ ss) c := by
  induction rs generalizing a with
  | nil => exact h ▸ g
  | cons r rs ih => exact ⟨h.1, h.2.1, h.2.2.1, ih h.2.2.2⟩

/-- One more request from where the transfer stands. -/
theorem Transfers.snoc {taken : Nat} (h : Transfers n a rs b) (hb : b ≤ n)
    (ht : taken ≤ n - b) : Transfers n a (rs ++ [⟨b, n - b, taken⟩]) (b + taken) :=
  h.append ⟨rfl, by simp; omega, ht, rfl⟩

theorem Transfers.le (h : Transfers n a rs b) : a ≤ b := by
  induction rs generalizing a with
  | nil => exact Nat.le_of_eq h
  | cons r rs ih => exact Nat.le_trans (Nat.le_add_right _ _) (ih h.2.2.2)

/-- What a transfer takes is the part of the block between its two positions. -/
theorem Transfers.gather_eq (h : Transfers n a rs b) (items : List β) :
    gather items rs = (items.drop a).take (b - a) := by
  induction rs generalizing a with
  | nil => simp [show a = b from h]
  | cons r rs ih =>
    obtain ⟨ho, -, -, hrest⟩ := h
    have hle := hrest.le
    have hsplit : b - a = r.taken + (b - (a + r.taken)) := by omega
    rw [gather_cons, ih hrest, hsplit, List.take_add, List.drop_drop, ho]
    simp

/-- A transfer from the beginning takes a prefix of the block. -/
theorem Transfers.gather_prefix (h : Transfers n 0 rs b) (items : List β) :
    gather items rs = items.take b := by
  simpa using h.gather_eq items

end Library.Transfer
