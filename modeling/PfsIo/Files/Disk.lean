import PfsIo.Library.Patch
import PfsIo.Local.Server
import PfsIo.Model.Status
import PfsIo.Objects.Spared

/-!
# Files on a disk

What the kernel keeps of ordinary files: their names, their contents, and for each open descriptor
the file, the position and the flags. Positions belong to descriptors, so that one file can be read
and written at several positions.

## Main definitions

* `Disk.next` — the effect of a call.
* `Disk.readAnswer`, `Disk.writeAnswer` — what `::read` and `::write` answer.
* `Disk.advance`, `Disk.store` — the effects of the two.

## Main results

* `Disk.opens_next` — the calls about other descriptors.
* `Disk.written_of_le` — what a write leaves.
-/

namespace PfsIo

open Library Local

/-- What an open descriptor stands for. -/
structure Description where
  file : Nat
  offset : Nat
  flags : Nat

/-- The file can be read through the descriptor. -/
def Description.readable (d : Description) : Bool := d.flags &&& File.oAccmode != File.oWronly

def Description.writable (d : Description) : Bool := d.flags &&& File.oAccmode != 0

structure Disk (κ : Type*) where
  fs : FileSystem κ
  /-- The contents of the ordinary files; sockets have none. -/
  content : Nat → Option Bytes
  opens : Int → Option Description
  fresh : ∀ i, fs.next ≤ i → content i = none

namespace Disk

variable {κ : Type*}

/-- What is to come at the position of a descriptor. -/
def rest (d : Disk κ) (desc : Description) : Bytes :=
  ((d.content desc.file).getD []).drop desc.offset

/-- The answer of `::read`, where `reply` says how many bytes are read at most. -/
def readAnswer (d : Disk κ) (fd : Int) (n : Nat) (reply : Except ℕ+ ℕ+) : Except ℕ+ Bytes :=
  match d.opens fd with
  | some desc =>
    if desc.readable then reply.map fun k : ℕ+ => (d.rest desc).take (min n k)
    else .error badDescriptor
  | none => .error badDescriptor

/-- The answer of `::write` for `n` bytes. -/
def writeAnswer (d : Disk κ) (fd : Int) (n : Nat) (reply : Except ℕ+ ℕ+) : Except ℕ+ Nat :=
  match d.opens fd with
  | some desc =>
    if desc.writable then reply.map fun k : ℕ+ => min n k
    else .error badDescriptor
  | none => .error badDescriptor

/-- The position moves over what was read or written. -/
def advance (d : Disk κ) (fd : Int) (n : Nat) : Disk κ :=
  match d.opens fd with
  | some desc =>
    { d with opens := Function.update d.opens fd (some { desc with offset := desc.offset + n }) }
  | none => d

/-- The content after some bytes were written at a position; a gap behind the end is filled with
zeros. -/
def written (old : Bytes) (offset : Nat) (bytes : Bytes) : Bytes :=
  if bytes = [] then old else patch (old ++ List.replicate (offset - old.length) 0) offset bytes

/-- The bytes that a write has taken are put at the position of the descriptor. -/
def store (d : Disk κ) (fd : Int) (bytes : Bytes) : Disk κ :=
  match d.opens fd with
  | some desc =>
    match h : d.content desc.file with
    | some old =>
      advance { d with
        content := Function.update d.content desc.file (some (written old desc.offset bytes))
        fresh := fun i hi => by
          have hne : i ≠ desc.file := by
            rintro rfl
            simp [d.fresh _ hi] at h
          rw [Function.update_of_ne hne]
          exact d.fresh i hi } fd bytes.length
    | none => d
  | none => d

section Access

variable {d : Disk κ} {desc : Description} {fd : Int}

theorem readAnswer_of_readable (h : d.opens fd = some desc) (hr : desc.readable = true) (n : Nat)
    (reply : Except ℕ+ ℕ+) :
    d.readAnswer fd n reply = reply.map fun k : ℕ+ => (d.rest desc).take (min n k) := by
  simp only [readAnswer, h, hr, if_true]

theorem writeAnswer_of_writable (h : d.opens fd = some desc) (hw : desc.writable = true) (n : Nat)
    (reply : Except ℕ+ ℕ+) : d.writeAnswer fd n reply = reply.map fun k : ℕ+ => min n k := by
  simp only [writeAnswer, h, hw, if_true]

theorem advance_of_opens (h : d.opens fd = some desc) (n : Nat) :
    d.advance fd n = { d with
      opens := Function.update d.opens fd (some { desc with offset := desc.offset + n }) } := by
  simp only [advance, h]

theorem store_of_opens (h : d.opens fd = some desc) {old : Bytes}
    (hold : d.content desc.file = some old) (bytes : Bytes) :
    (d.store fd bytes).fs = d.fs ∧
      (d.store fd bytes).content =
        Function.update d.content desc.file (some (written old desc.offset bytes)) ∧
      (d.store fd bytes).opens = Function.update d.opens fd
        (some { desc with offset := desc.offset + bytes.length }) := by
  unfold store
  simp only [h]
  split
  · next old' hold' =>
    obtain rfl := Option.some.inj (hold'.symm.trans hold)
    simp only [advance, h]
    exact ⟨trivial, trivial, trivial⟩
  · next hnone => simp [hold] at hnone

/-- A write at a position within the content. -/
theorem written_of_le {old : Bytes} {offset : Nat} (h : offset ≤ old.length) (bytes : Bytes) :
    written old offset bytes = old.take offset ++ (bytes ++ old.drop (offset + bytes.length)) := by
  unfold written
  split
  · next hnil => simp [hnil]
  · simp [patch, Nat.sub_eq_zero_of_le h]

/-- A read through a descriptor fails, or gets the next bytes of the file. -/
theorem read_cases (plat : Platform) (h : d.opens fd = some desc) (n : Nat)
    (reply : Except ℕ+ ℕ+) (errno : Nat) (ec : ErrorCode) :
    let r := File.read plat n (d.readAnswer fd n reply) errno ec
    (r.rc < 0 ∧ r.bytes = []) ∨ ∃ k : ℕ+, desc.readable = true ∧
      r.bytes = (d.rest desc).take (min n k) ∧ r.rc = r.bytes.length := by
  cases hr : desc.readable with
  | false =>
    refine .inl ?_
    simp [readAnswer, h, hr, File.read]
  | true =>
    rw [readAnswer_of_readable h hr]
    cases reply with
    | error e => exact .inl ⟨by simp [File.read, Except.map], rfl⟩
    | ok k =>
      refine .inr ⟨k, rfl, ?_, rfl⟩
      simp only [File.read, Except.map, List.take_take]
      congr 1
      omega

/-- A read stores all that `::read` delivers. -/
theorem read_stores (plat : Platform) (d : Disk κ) (fd : Int) (n : Nat) (reply : Except ℕ+ ℕ+)
    (errno : Nat) (ec : ErrorCode) :
    (File.read plat n (d.readAnswer fd n reply) errno ec).bytes =
      (d.readAnswer fd n reply).toOption.getD [] := by
  cases hanswer : d.readAnswer fd n reply with
  | error e => rfl
  | ok bytes =>
    have hlen : bytes.length ≤ n := by
      unfold readAnswer at hanswer
      split at hanswer
      · split at hanswer
        · obtain ⟨k, rfl⟩ : ∃ k, bytes = List.take (min n k) (d.rest _) := by
            cases reply with
            | error e => cases hanswer
            | ok k => exact ⟨_, (Except.ok.inj hanswer).symm⟩
          rw [List.length_take]
          omega
        · cases hanswer
      · cases hanswer
    exact List.take_of_length_le hlen

/-- A write through a descriptor fails, or takes the first bytes of its message. -/
theorem write_cases (plat : Platform) (h : d.opens fd = some desc) (bytes : Bytes)
    (reply : Except ℕ+ ℕ+) (errno : Nat) (ec : ErrorCode) :
    let r := File.write plat bytes.length (d.writeAnswer fd bytes.length reply) errno ec
    (r.rc < 0 ∧ r.accepted bytes = []) ∨ ∃ k : ℕ+, desc.writable = true ∧
      r.accepted bytes = bytes.take (min bytes.length k) ∧
        r.rc = (min bytes.length k : Nat) := by
  cases hw : desc.writable with
  | false =>
    refine .inl ?_
    simp [writeAnswer, h, hw, File.write, WriteResult.accepted]
  | true =>
    rw [writeAnswer_of_writable h hw]
    cases reply with
    | error e => exact .inl (by simp [File.write, Except.map, WriteResult.accepted])
    | ok k =>
      refine .inr ⟨k, rfl, ?_, ?_⟩
      all_goals simp [File.write, Except.map, WriteResult.accepted]

end Access

section Calls

variable [DecidableEq κ]

/-- The file is made, and is empty. -/
def openNew (d : Disk κ) (path : Bytes) (flags : Nat) (fd : Int) : Disk κ where
  fs := d.fs.create path
  content := Function.update d.content d.fs.next (some [])
  opens := Function.update d.opens fd (some ⟨d.fs.next, 0, flags⟩)
  fresh i hi := by
    have hle : d.fs.next + 1 ≤ i := hi
    rw [Function.update_of_ne (by omega)]
    exact d.fresh i (by omega)

/-- The file is there; it is made empty with `O_TRUNC`, whatever the access mode. -/
def openOld (d : Disk κ) (i : Nat) (bytes : Bytes) (h : d.content i = some bytes) (flags : Nat)
    (fd : Int) : Disk κ where
  fs := d.fs
  content := Function.update d.content i (some (if hasFlag flags File.oTrunc then [] else bytes))
  opens := Function.update d.opens fd (some ⟨i, 0, flags⟩)
  fresh j hj := by
    have hne : j ≠ i := by
      rintro rfl
      simp [d.fresh j hj] at h
    rw [Function.update_of_ne hne]
    exact d.fresh j hj

/-- The calls of local sockets; a file that they make is a socket. -/
def names (d : Disk κ) (call : Call) : Disk κ where
  fs := d.fs.effect call
  content := d.content
  opens := d.opens
  fresh i hi := by
    refine d.fresh i (Nat.le_trans ?_ hi)
    cases call with
    | unlink path rc =>
      simp only [FileSystem.effect]
      split <;> exact Nat.le_refl _
    | bind fd addr rc =>
      simp only [FileSystem.effect]
      split
      · exact Nat.le_succ _
      · exact Nat.le_refl _
    | _ => exact Nat.le_refl _

/-- The effect of a call, if the kernel can give its answer: a file is found or made. -/
def next : Machine (Disk κ) Call
  | d, .openFile path flags _ rc =>
    if 0 ≤ rc then
      match d.fs.lookup path with
      | none => if hasFlag flags File.oCreat then some (d.openNew path flags rc) else none
      | some i =>
        match h : d.content i with
        | some bytes => some (d.openOld i bytes h flags rc)
        | none => none
    else some d
  | d, .close fd _ _ => some { d with opens := Function.update d.opens fd none }
  | d, call => some (d.names call)

variable {d d' : Disk κ} {fd : Int} {path : Bytes} {flags mode : Nat} {rc : Int} {call : Call}

theorem next_openFile_eq_some (h : next d (.openFile path flags mode rc) = some d') :
    rc < 0 ∧ d' = d ∨ 0 ≤ rc ∧
      (d.fs.lookup path = none ∧ hasFlag flags File.oCreat = true ∧ d' = d.openNew path flags rc ∨
        ∃ i bytes, ∃ h : d.content i = some bytes, d.fs.lookup path = some i ∧
          d' = d.openOld i bytes h flags rc) := by
  simp only [next] at h
  split at h
  · next hrc =>
    refine .inr ⟨hrc, ?_⟩
    split at h
    · next hlookup =>
      obtain ⟨hcreat, h⟩ := Option.ite_none_right_eq_some.mp h
      exact .inl ⟨hlookup, hcreat, (Option.some.inj h).symm⟩
    · next i hlookup =>
      split at h
      · next bytes hbytes => exact .inr ⟨i, bytes, hbytes, hlookup, (Option.some.inj h).symm⟩
      · cases h
  · next hrc => exact .inl ⟨by omega, (Option.some.inj h).symm⟩

/-- The effects of other calls. -/
theorem next_eq_some (h : next d call = some d') :
    (∃ path flags mode rc, call = .openFile path flags mode rc) ∨
    (∃ fd wasOpen rc, call = .close fd wasOpen rc ∧
      d' = { d with opens := Function.update d.opens fd none }) ∨
    d' = d.names call := by
  cases call with
  | openFile path flags mode rc => exact .inl ⟨path, flags, mode, rc, rfl⟩
  | close fd wasOpen rc => exact .inr (.inl ⟨fd, wasOpen, rc, rfl, (Option.some.inj h).symm⟩)
  | _ => exact .inr (.inr (Option.some.inj h).symm)

/-- What a descriptor stands for is changed by the calls about it. -/
theorem opens_next (hcall : call.subject ≠ some fd) (h : next d call = some d') :
    d'.opens fd = d.opens fd := by
  have hupdate : ∀ fd' desc, fd ≠ fd' → Function.update d.opens fd' desc fd = d.opens fd :=
    fun fd' desc hne => Function.update_of_ne hne _ _
  rcases next_eq_some h with ⟨path, flags, mode, rc, rfl⟩ | ⟨fd', wasOpen, rc, rfl, rfl⟩ | rfl
  · rcases next_openFile_eq_some h with ⟨-, rfl⟩ | ⟨hrc, hopen⟩
    · rfl
    · have hne : fd ≠ rc := by
        rintro rfl
        exact hcall (if_pos hrc)
      rcases hopen with ⟨-, -, rfl⟩ | ⟨i, bytes, hbytes, -, rfl⟩
      · exact hupdate rc _ hne
      · exact hupdate rc _ hne
  · refine hupdate fd' none ?_
    rintro rfl
    exact hcall rfl
  · rfl

end Calls

/-- The call of a successful `file::open`. -/
theorem calls_open (plat : Platform) (os : Os) (path : Bytes) (oflags perms : Nat) (a : Alloc)
    (ec : ErrorCode) :
    (File.open_ plat os path oflags perms (.ok a) ec).value = ⟨a.pick os.opened⟩ ∧
      callsSince os (File.open_ plat os path oflags perms (.ok a) ec).os =
        [.openFile (cStr path) (File.nativeFlags oflags) (File.nativeMode oflags perms)
          (a.pick os.opened)] := by
  refine ⟨by simp [File.open_, a.nonneg], callsSince_of_append ?_⟩
  rw [FactoryCall.os_open, Os.log_newFd]
  rfl

/-- A file with four bytes. -/
def page : Disk Bytes where
  fs := oneFile
  content i := if i = 0 then some [1, 2, 3, 4] else none
  opens _ := none
  fresh i hi := by
    have hle : 1 ≤ i := hi
    rw [if_neg (by omega)]

end Disk

end PfsIo
