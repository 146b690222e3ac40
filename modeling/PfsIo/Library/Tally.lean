import Mathlib.Data.List.Basic

/-!
# The counts that calls return

A call that moves items returns how many it has moved, or a negative value, and its caller takes
so many of the items. They are the items that were moved when the count is right.

## Main definitions

* `Tally` — what a call has returned, with the items that it has moved.
* `Tally.Exact` — the count is right.
* `reportedBy` — the items that some calls have reported.
-/

namespace Library

variable {β : Type*}

/-- What a call has returned, and the items that it has moved. -/
structure Tally (β : Type*) where
  rc : Int
  items : List β
  deriving DecidableEq, Repr

namespace Tally

variable {t : Tally β}

/-- The call has returned the number of its items, or it has failed and there are none. -/
def Exact (t : Tally β) : Prop := t.rc = t.items.length ∨ (t.rc < 0 ∧ t.items = [])

/-- The items that the return value speaks of. -/
def reported (t : Tally β) : List β := t.items.take t.rc.toNat

theorem Exact.ok (items : List β) : Exact ⟨items.length, items⟩ := .inl rfl

theorem Exact.failed {rc : Int} (h : rc < 0) : Exact (⟨rc, []⟩ : Tally β) := .inr ⟨h, rfl⟩

theorem Exact.reported_eq (h : t.Exact) : t.reported = t.items := by
  rcases h with hrc | ⟨-, hnil⟩
  · rw [reported, hrc, Int.toNat_natCast, List.take_length]
  · rw [reported, hnil, List.take_nil]

theorem exact_concat {calls : List (Tally β)} (h : ∀ c ∈ calls, c.Exact) (ht : t.Exact) :
    ∀ c ∈ calls ++ [t], c.Exact :=
  List.forall_mem_append.mpr ⟨h, List.forall_mem_singleton.mpr ht⟩

end Tally

/-- The items that some calls have reported, in order. -/
def reportedBy (calls : List (Tally β)) : List β := calls.flatMap Tally.reported

@[simp] theorem reportedBy_nil : reportedBy ([] : List (Tally β)) = [] := rfl

/-- A call with the right count reports what it has moved. -/
theorem reportedBy_concat (calls : List (Tally β)) {t : Tally β} (ht : t.Exact) :
    reportedBy (calls ++ [t]) = reportedBy calls ++ t.items := by
  simp [reportedBy, ht.reported_eq]

end Library
