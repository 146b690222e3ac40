import Mathlib.Data.Nat.Digits.Defs

/-!
# Decimal text

Numbers as the bytes of their decimal digits, the most significant first, and the number
that a text of digits stands for.

## Main definitions

* `Decimal.text` — the digits of a number.
* `Decimal.value` — the number of a text of digits.

## Main results

* `Decimal.value_text` — the text of a number stands for it.
* `Decimal.takeWhile_text` — the text ends where no further digit follows.
-/

namespace Library.Decimal

/-- The byte of a digit. -/
def digit (d : Nat) : UInt8 := UInt8.ofNat (48 + d)

def isDigit (b : UInt8) : Bool := decide (48 ≤ b.toNat ∧ b.toNat ≤ 57)

/-- The number that digits stand for. -/
def value (text : List UInt8) : Nat := text.foldl (fun n b => 10 * n + (b.toNat - 48)) 0

/-- The digits of a number; zero has one. -/
def text (n : Nat) : List UInt8 :=
  if n = 0 then [digit 0] else ((Nat.digits 10 n).map digit).reverse

theorem toNat_digit {d : Nat} (h : d < 10) : (digit d).toNat = 48 + d := by
  rw [digit, UInt8.toNat_ofNat']
  omega

theorem isDigit_digit {d : Nat} (h : d < 10) : isDigit (digit d) = true := by
  rw [isDigit, toNat_digit h, decide_eq_true_eq]
  omega

theorem exists_digit_of_mem {n : Nat} {b : UInt8} (h : b ∈ text n) : ∃ d, d < 10 ∧ b = digit d := by
  unfold text at h
  split at h
  · exact ⟨0, by omega, List.mem_singleton.mp h⟩
  · obtain ⟨d, hd, rfl⟩ := List.mem_map.mp (List.mem_reverse.mp h)
    exact ⟨d, Nat.digits_lt_base (by omega) hd, rfl⟩

theorem text_ne_nil (n : Nat) : text n ≠ [] := by
  unfold text
  split
  · exact List.cons_ne_nil _ _
  · simpa [Nat.digits_eq_nil_iff_eq_zero] using ‹_›

theorem isDigit_of_mem_text {n : Nat} {b : UInt8} (h : b ∈ text n) : isDigit b = true := by
  obtain ⟨d, hd, rfl⟩ := exists_digit_of_mem h
  exact isDigit_digit hd

/-- Digits that are read from the least significant on. -/
theorem value_reverse_map {digits : List Nat} (h : ∀ d ∈ digits, d < 10) :
    value (digits.map digit).reverse = Nat.ofDigits 10 digits := by
  induction digits with
  | nil => rfl
  | cons d digits ih =>
    obtain ⟨hd, hdigits⟩ := List.forall_mem_cons.mp h
    have hvalue := ih hdigits
    unfold value at hvalue ⊢
    rw [List.map_cons, List.reverse_cons, List.foldl_append, hvalue, List.foldl_cons,
      List.foldl_nil, toNat_digit hd, Nat.ofDigits_cons]
    omega

theorem value_text (n : Nat) : value (text n) = n := by
  unfold text
  split
  · simp [*, value, digit]
  · rw [value_reverse_map fun d hd => Nat.digits_lt_base (by omega) hd, Nat.ofDigits_digits]

theorem takeWhile_text (n : Nat) {b : UInt8} (h : isDigit b = false) (more : List UInt8) :
    (text n ++ b :: more).takeWhile isDigit = text n := by
  rw [List.takeWhile_append_of_pos fun _ => isDigit_of_mem_text,
    List.takeWhile_cons_of_neg (by simp [h]), List.append_nil]

end Library.Decimal
