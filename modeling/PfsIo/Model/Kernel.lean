import Mathlib.Data.Finset.Lattice.Fold
import Mathlib.Order.Lattice.Nat
import PfsIo.Model.ErrorCode
import PfsIo.Model.Memory

/-!
# The kernel's side of the system calls

The descriptor table, `errno` and a log of the calls made. The kernel's answers are
arguments of the calls, so that a theorem about every answer quantifies over them.
An answer that creates a descriptor carries the rule by which its number is chosen,
with the guarantee that it is not open at that moment.

## Main definitions

* `Alloc` — a choice of a number for a new descriptor.
* `Os` — the state of the kernel as far as the library can observe it.
* `Os.newFd`, `Os.check`, `Os.close` — the three shapes of system calls.
-/

namespace PfsIo

/-- A choice of descriptor numbers: non-negative and never one that is open. -/
structure Alloc where
  pick : Finset Int → Int
  nonneg : ∀ opened, 0 ≤ pick opened
  fresh : ∀ opened, pick opened ∉ opened

/-- A number above all open descriptors. -/
def Alloc.above (opened : Finset Int) : Int := (opened.sup Int.natAbs : Nat) + 1

theorem Alloc.above_fresh (opened : Finset Int) : Alloc.above opened ∉ opened := by
  intro h
  have hle : (Alloc.above opened).natAbs ≤ opened.sup Int.natAbs := Finset.le_sup h
  unfold Alloc.above at hle
  omega

/-- The descriptor `n` as long as it is free, and then one above all others. -/
def Alloc.prefer (n : Nat) : Alloc where
  pick opened := if (n : Int) ∈ opened then Alloc.above opened else n
  nonneg opened := by
    split
    · unfold Alloc.above; omega
    · omega
  fresh opened := by
    split
    · exact Alloc.above_fresh opened
    · assumption

/-- The answer of a call that creates a descriptor: an `errno` or the choice of a number. -/
abbrev FdReply := Except ℕ+ Alloc

/-- The answer of a call that returns zero or fails with an `errno`. -/
abbrev Reply := Except ℕ+ Unit

section Reply

variable {ε α : Type} {r : Except ε α}

@[simp] theorem isOk_ok (a : α) : (Except.ok a : Except ε α).isOk = true := rfl

@[simp] theorem isOk_error (e : ε) : (Except.error e : Except ε α).isOk = false := rfl

theorem isOk_iff : r.isOk = true ↔ ∃ a, r = .ok a := by
  cases r <;> simp

theorem isOk_eq_false_iff : ¬ r.isOk = true ↔ ∃ e, r = .error e := by
  cases r <;> simp

end Reply

/-- System calls as they are logged, with what they returned. -/
inductive Call where
  | openFile (path : Bytes) (oflags mode : Nat) (rc : Int)
  | socket (family socktype protocol : Nat) (rc : Int)
  | accept (fd rc : Int)
  | connect (fd : Int) (addr : Bytes) (rc : Int)
  | setReuseAddr (fd rc : Int)
  | bind (fd : Int) (addr : Bytes) (rc : Int)
  | listen (fd backlog rc : Int)
  | unlink (path : Bytes) (rc : Int)
  | shutdown (fd rc : Int)
  | fsync (fd rc : Int)
  /-- `wasOpen` tells whether the descriptor was open at that moment. -/
  | close (fd : Int) (wasOpen : Bool) (rc : Int)
  /-- A descriptor handed to the constructor of an object. -/
  | given (fd : Int)
  deriving DecidableEq, Repr

structure Os where
  opened : Finset Int
  errno : Nat
  log : List Call
  deriving DecidableEq

/-- What a system call returned, and the state after it. -/
structure Sys where
  rc : Int
  os : Os

namespace Os

/-- A call that creates a descriptor. -/
def newFd (os : Os) (call : Int → Call) : FdReply → Sys
  | .error e => ⟨-1, { os with errno := e, log := os.log ++ [call (-1)] }⟩
  | .ok a =>
    let fd := a.pick os.opened
    ⟨fd, { os with opened := insert fd os.opened, log := os.log ++ [call fd] }⟩

/-- A call that returns zero or fails. -/
def check (os : Os) (call : Int → Call) : Reply → Sys
  | .error e => ⟨-1, { os with errno := e, log := os.log ++ [call (-1)] }⟩
  | .ok _ => ⟨0, { os with log := os.log ++ [call 0] }⟩

/-- `::close`; the descriptor is gone even when an error is reported. -/
def close (os : Os) (fd : Int) (r : Reply) : Sys :=
  let c := os.check (Call.close fd (decide (fd ∈ os.opened))) r
  ⟨c.rc, { c.os with opened := c.os.opened.erase fd }⟩

variable (os : Os) (call : Int → Call)

@[simp] theorem newFd_error (e : ℕ+) : (os.newFd call (.error e)).rc = -1 := rfl

@[simp] theorem newFd_ok (a : Alloc) : (os.newFd call (.ok a)).rc = a.pick os.opened := rfl

@[simp] theorem opened_newFd_error (e : ℕ+) :
    (os.newFd call (.error e)).os.opened = os.opened := rfl

@[simp] theorem opened_newFd_ok (a : Alloc) :
    (os.newFd call (.ok a)).os.opened = insert (a.pick os.opened) os.opened := rfl

@[simp] theorem errno_newFd_error (e : ℕ+) : (os.newFd call (.error e)).os.errno = e := rfl

@[simp] theorem log_newFd (r : FdReply) :
    (os.newFd call r).os.log = os.log ++ [call (os.newFd call r).rc] := by
  cases r <;> rfl

@[simp] theorem opened_check (r : Reply) : (os.check call r).os.opened = os.opened := by
  cases r <;> rfl

@[simp] theorem check_error (e : ℕ+) : (os.check call (.error e)).rc = -1 := rfl

@[simp] theorem check_ok (u : Unit) : (os.check call (.ok u)).rc = 0 := rfl

@[simp] theorem errno_check_error (e : ℕ+) : (os.check call (.error e)).os.errno = e := rfl

@[simp] theorem log_check (r : Reply) :
    (os.check call r).os.log = os.log ++ [call (os.check call r).rc] := by
  cases r <;> rfl

@[simp] theorem opened_close (fd : Int) (r : Reply) :
    (os.close fd r).os.opened = os.opened.erase fd := by
  simp [close]

@[simp] theorem log_close (fd : Int) (r : Reply) :
    (os.close fd r).os.log =
      os.log ++ [.close fd (decide (fd ∈ os.opened)) (os.close fd r).rc] := by
  simp [close]

end Os

/-- The calls made between two states of the kernel. -/
def callsSince (before after : Os) : List Call := after.log.drop before.log.length

theorem callsSince_of_append {before after : Os} {calls : List Call}
    (h : after.log = before.log ++ calls) : callsSince before after = calls := by
  simp [callsSince, h]

theorem callsSince_of_appends {before mid after : Os} {calls more : List Call}
    (h : mid.log = before.log ++ calls) (h' : after.log = mid.log ++ more) :
    callsSince before after = calls ++ more := by
  simp [callsSince, h, h']

/-- The calls made between two states of the kernel, apart from a clean-up. -/
def Makes (before after : Os) (calls : List Call) : Prop :=
  ∃ closed, callsSince before after = calls ++ closed ∧
    ∀ call ∈ closed, ∃ fd wasOpen rc, call = .close fd wasOpen rc

theorem Makes.of_log {before after : Os} {calls : List Call}
    (h : after.log = before.log ++ calls) : Makes before after calls :=
  ⟨[], by rw [callsSince_of_append h, List.append_nil], by simp⟩

theorem Makes.close {before after : Os} {calls : List Call}
    (h : after.log = before.log ++ calls) (fd : Int) (r : Reply) :
    Makes before (after.close fd r).os calls := by
  refine ⟨_, callsSince_of_appends h (Os.log_close _ _ _), fun call hcall => ?_⟩
  exact ⟨_, _, _, List.mem_singleton.mp hcall⟩

/-- What is read off the calls is not changed by a clean-up. -/
theorem Makes.filterMap {β : Type*} {before after : Os} {calls : List Call}
    (h : Makes before after calls) (f : Call → Option β)
    (hf : ∀ fd wasOpen rc, f (.close fd wasOpen rc) = none) :
    (callsSince before after).filterMap f = calls.filterMap f := by
  obtain ⟨closed, hcalls, hclosed⟩ := h
  have hnone : closed.filterMap f = [] := by
    rw [List.filterMap_eq_nil_iff]
    intro call hcall
    obtain ⟨fd, wasOpen, rc, rfl⟩ := hclosed call hcall
    exact hf fd wasOpen rc
  rw [hcalls, List.filterMap_append, hnone, List.append_nil]

/-- A call that is not of `::close` is among them. -/
theorem Makes.mem_iff {before after : Os} {calls : List Call} (h : Makes before after calls)
    {call : Call} (hcall : ∀ fd wasOpen rc, call ≠ .close fd wasOpen rc) :
    call ∈ callsSince before after ↔ call ∈ calls := by
  obtain ⟨closed, hcalls, hclosed⟩ := h
  have hnot : call ∉ closed := by
    intro hmem
    obtain ⟨fd, wasOpen, rc, heq⟩ := hclosed call hmem
    exact hcall fd wasOpen rc heq
  rw [hcalls, List.mem_append, or_iff_left hnot]

/-- The descriptors closed between two states of the kernel. -/
def ClosedSince (before after : Os) (fd : Int) : Prop :=
  ∃ wasOpen rc, .close fd wasOpen rc ∈ callsSince before after

/-- A function's result together with its error code argument and the kernel afterwards. -/
structure Ret (α : Type*) where
  value : α
  ec : ErrorCode
  os : Os

end PfsIo
