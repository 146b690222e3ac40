import PfsIo.Files.Disk

/-!
# Files in a program

Programs that make, move, swap and close objects of all classes, read and write files through them,
and open a file for writing only if they make it. Readers and a writer of a file can be open at the
same time.

## Main definitions

* `Disk.careful` — the calls of such programs.
* `Disk.Neat` — a file is written at its end, through one descriptor.
* `FileWrite` — a write, with what it has returned and what was taken.
* `Filing.step` — the steps.
* `Filing.Valid` — the invariant.

## Main results

* `Filing.run_files` — a reader has got the beginning of what the file had and what was written to
  it.
-/

namespace PfsIo

open Library

namespace Disk

variable {κ : Type*} {d d' : Disk κ} {fd : Int} {desc : Description} {call : Call}

/-- Positions are within the files, and a file is written at its end, through one descriptor. -/
structure Neat (d : Disk κ) : Prop where
  within : ∀ fd desc, d.opens fd = some desc → ∃ content, d.content desc.file = some content ∧
    desc.offset ≤ content.length ∧ (desc.writable = true → desc.offset = content.length)
  sole : ∀ fd fd' desc desc', d.opens fd = some desc → d.opens fd' = some desc' →
    desc.file = desc'.file → desc.writable = true → desc'.writable = true → fd = fd'

/-- Contents that are there stay; a file that is made is empty. -/
def Grows (d d' : Disk κ) : Prop :=
  ∀ i, d'.content i = d.content i ∨ d.content i = none ∧ d'.content i = some []

theorem Grows.refl (d : Disk κ) : Grows d d := fun _ => .inl rfl

theorem Grows.trans {d'' : Disk κ} (h : Grows d d') (h' : Grows d' d'') : Grows d d'' := by
  intro i
  have hi := h i
  have hi' := h' i
  grind

theorem Neat.openOld (h : d.Neat) {i : Nat} {bytes : Bytes} (hbytes : d.content i = some bytes)
    {flags : Nat} (hread : flags &&& File.oAccmode = 0) (htrunc : hasFlag flags File.oTrunc = false)
    (fd : Int) : (d.openOld i bytes hbytes flags fd).Neat ∧
      Grows d (d.openOld i bytes hbytes flags fd) := by
  have hwritable : ∀ offset, (⟨i, offset, flags⟩ : Description).writable = false := by
    simp [Description.writable, hread]
  have hsame : (d.openOld i bytes hbytes flags fd).content = d.content := by
    simp only [Disk.openOld, htrunc, Bool.false_eq_true, if_false]
    exact Function.update_eq_self_iff.mpr hbytes.symm
  obtain ⟨within, sole⟩ := h
  refine ⟨⟨?_, ?_⟩, fun j => .inl (by rw [hsame])⟩
  · intro fd' desc hopen
    rw [hsame]
    simp only [Disk.openOld, Function.update_apply] at hopen
    grind
  · intro fd₁ fd₂ desc₁ desc₂ hopen₁ hopen₂
    simp only [Disk.openOld, Function.update_apply] at hopen₁ hopen₂
    grind

/-- A read stays within the file. -/
theorem Neat.advance (h : d.Neat) (hopen : d.opens fd = some desc) {n : Nat}
    (hn : n ≤ (d.rest desc).length) : (d.advance fd n).Neat := by
  obtain ⟨content, hcontent, hle, hend⟩ := h.within fd desc hopen
  have hlen : (d.rest desc).length = content.length - desc.offset := by simp [rest, hcontent]
  obtain ⟨within, sole⟩ := h
  rw [advance_of_opens hopen]
  refine ⟨?_, ?_⟩
  all_goals simp only [Function.update_apply]
  · intro fd' desc' hopen'
    split at hopen'
    · obtain rfl := Option.some.inj hopen'
      refine ⟨content, hcontent, ?_, fun hw => ?_⟩
      · simp only
        omega
      · have hoffset := hend hw
        simp only
        omega
    · exact within fd' desc' hopen'
  · intro fd₁ fd₂ desc₁ desc₂ hopen₁ hopen₂
    grind [Description.writable]

/-- What a writer writes is appended; other descriptors write nothing. -/
theorem Neat.store (h : d.Neat) (hopen : d.opens fd = some desc) {content : Bytes}
    (hcontent : d.content desc.file = some content) {bytes : Bytes}
    (hw : desc.writable = false → bytes = []) : (d.store fd bytes).Neat ∧
      (d.store fd bytes).content =
        Function.update d.content desc.file (some (content ++ bytes)) := by
  obtain ⟨content', hcontent', hle, hend⟩ := h.within fd desc hopen
  obtain rfl := Option.some.inj (hcontent'.symm.trans hcontent)
  obtain ⟨-, hstored, hopens⟩ := store_of_opens hopen hcontent bytes
  have hwritten : written content' desc.offset bytes = content' ++ bytes := by
    cases hwritable : desc.writable with
    | false => simp [hw hwritable, written]
    | true =>
      have hoffset := hend hwritable
      rw [written_of_le hle, hoffset, List.take_length, List.drop_of_length_le (by omega),
        List.append_nil]
  rw [hwritten] at hstored
  refine ⟨⟨fun fd' desc' hopen' => ?_, fun fd₁ fd₂ desc₁ desc₂ hopen₁ hopen₂ => ?_⟩, hstored⟩
  · rw [hstored]
    rw [hopens, Function.update_apply] at hopen'
    split at hopen'
    · obtain rfl := Option.some.inj hopen'
      refine ⟨content' ++ bytes, Function.update_self _ _ _, ?_, fun hw' => ?_⟩
      · simp only [List.length_append]
        omega
      · have hoffset := hend hw'
        simp only [List.length_append]
        omega
    · next hne =>
      obtain ⟨content, hfile, hle', hend'⟩ := h.within fd' desc' hopen'
      by_cases heq : desc'.file = desc.file
      · rw [heq] at hfile ⊢
        obtain rfl := Option.some.inj (hfile.symm.trans hcontent)
        refine ⟨content ++ bytes, Function.update_self _ _ _, ?_, fun hw' => ?_⟩
        · rw [List.length_append]
          omega
        · cases hwritable : desc.writable with
          | false => rw [hw hwritable, List.append_nil, hend' hw']
          | true => exact absurd (h.sole fd' fd desc' desc hopen' hopen heq hw' hwritable) hne
      · exact ⟨content, by rw [Function.update_of_ne heq, hfile], hle', hend'⟩
  · rw [hopens, Function.update_apply] at hopen₁ hopen₂
    have hsole := h.sole
    grind [Description.writable]

section Calls

variable [DecidableEq κ]

/-- A file that is there is opened for reading only. -/
def modest (d : Disk κ) : Call → Bool
  | .openFile path flags _ _ =>
    (d.fs.lookup path).isNone ∨
      (flags &&& File.oAccmode = 0 ∧ hasFlag flags File.oTrunc = false)
  | _ => true

def careful : Machine (Disk κ) Call
  | d, call => if d.modest call then next d call else none

theorem Neat.openNew (h : d.Neat) (path : Bytes) (flags : Nat) (fd : Int) :
    (d.openNew path flags fd).Neat ∧ Grows d (d.openNew path flags fd) := by
  have hnone := d.fresh d.fs.next (Nat.le_refl _)
  have hne : ∀ fd' desc, d.opens fd' = some desc → desc.file ≠ d.fs.next := by
    rintro fd' desc hopen heq
    obtain ⟨content, hcontent, -⟩ := h.within fd' desc hopen
    simp [heq, hnone] at hcontent
  obtain ⟨within, sole⟩ := h
  refine ⟨⟨?_, ?_⟩, fun i => ?_⟩
  all_goals simp only [Disk.openNew, Function.update_apply]
  · intro fd' desc hopen
    split at hopen
    · obtain rfl := Option.some.inj hopen
      exact ⟨[], if_pos rfl, Nat.le_refl _, fun _ => rfl⟩
    · rw [if_neg (hne fd' desc hopen)]
      exact within fd' desc hopen
  · intro fd₁ fd₂ desc₁ desc₂ hopen₁ hopen₂
    grind
  · grind

theorem Neat.careful (h : d.Neat) (hcall : careful d call = some d') : d'.Neat ∧ Grows d d' := by
  obtain ⟨hmodest, hnext⟩ := Option.ite_none_right_eq_some.mp hcall
  rcases next_eq_some hnext with ⟨path, flags, mode, rc, rfl⟩ | ⟨fd, wasOpen, rc, -, rfl⟩ | rfl
  · rcases next_openFile_eq_some hnext with ⟨-, rfl⟩ | ⟨-, ⟨-, -, rfl⟩ | ⟨i, bytes, hbytes, hlookup,
      rfl⟩⟩
    · exact ⟨h, .refl _⟩
    · exact h.openNew path flags rc
    · obtain ⟨hread, htrunc⟩ : flags &&& File.oAccmode = 0 ∧ hasFlag flags File.oTrunc = false := by
        simpa [modest, hlookup] using hmodest
      exact h.openOld hbytes hread htrunc rc
  · obtain ⟨within, sole⟩ := h
    refine ⟨⟨?_, ?_⟩, .refl _⟩
    all_goals simp only [Function.update_apply]
    all_goals grind
  · exact ⟨⟨h.within, h.sole⟩, .refl _⟩

theorem Neat.run {calls : List Call} (h : d.Neat)
    (hrun : Machine.run Disk.careful d calls = some d') : d'.Neat ∧ Grows d d' :=
  Machine.run_rel (fun d d' : Disk κ => d.Neat → d'.Neat ∧ Grows d d') (fun d h => ⟨h, .refl d⟩)
    (fun _ _ _ hst htu h => ⟨(htu (hst h).1).1, (hst h).2.trans (htu (hst h).1).2⟩)
    (fun _ _ _ _ hcall h => h.careful hcall) hrun h

/-- Calls that spare a descriptor leave what it stands for. -/
theorem opens_run {os os' : Os} (h : Spares os os' fd)
    (hrun : Machine.run Disk.careful d (callsSince os os') = some d') :
    d'.opens fd = d.opens fd :=
  h.run (fun d d' : Disk κ => d'.opens fd = d.opens fd) (fun _ => rfl)
    (fun _ _ _ hst htu => htu.trans hst)
    (fun _ _ _ hcall hnext => opens_next hcall (Option.ite_none_right_eq_some.mp hnext).2) hrun

end Calls

end Disk

/-- A write to a file: what it has returned, and the bytes that `::write` has taken. -/
structure FileWrite where
  message : Bytes
  rc : Int
  taken : Bytes

namespace FileWrite

/-- The bytes that the write has reported as written. -/
def reported (w : FileWrite) : Bytes := w.message.take w.rc.toNat

/-- The write has returned the number of bytes taken, which are the first of its message, or it has
failed and none were taken. -/
structure Right (w : FileWrite) : Prop where
  beginning : w.taken <+: w.message
  counted : Tally.Exact ⟨w.rc, w.taken⟩

theorem Right.reported_eq {w : FileWrite} (h : w.Right) : w.reported = w.taken := by
  obtain ⟨hfirst, hcounted⟩ := h
  simp only [Tally.Exact] at hcounted
  rcases hcounted with hrc | ⟨hneg, hnil⟩
  · rw [reported, hrc, Int.toNat_natCast, ← List.prefix_iff_eq_take.mp hfirst]
  · rw [reported, Int.toNat_of_nonpos (Int.le_of_lt hneg), List.take_zero, hnil]

end FileWrite

/-- A program with its files. -/
structure Filing (κ : Type*) where
  world : World
  disk : Disk κ
  /-- What each read through a descriptor has returned and stored, since the descriptor was made. -/
  reads : Int → List (Tally UInt8)
  writes : Nat → List FileWrite

namespace Filing

/-- The bytes that the reads through a descriptor have reported. -/
def got {κ : Type*} (s : Filing κ) (fd : Int) : Bytes := reportedBy (s.reads fd)

/-- The bytes that the writes to a file have reported as written. -/
def wrote {κ : Type*} (s : Filing κ) (i : Nat) : Bytes := (s.writes i).flatMap FileWrite.reported

open World

variable {κ : Type*}

inductive Action where
  | program (a : Program.Action)
  | read (p : Place) (n : Nat) (reply : Except ℕ+ ℕ+) (errno : Nat) (ec : ErrorCode)
  | write (p : Place) (bytes : Bytes) (reply : Except ℕ+ ℕ+) (errno : Nat) (ec : ErrorCode)

def start (opened : Finset Int) (errno : Nat) (disk : Disk κ) : Filing κ :=
  ⟨World.start opened errno, disk, fun _ => [], fun _ => []⟩

/-- The open file at a place. -/
def fileAt (s : Filing κ) (p : Place) : Option Obj :=
  (s.world.objs p).filter fun o => o.kind.base = .file ∧ o.opened

/-- `file::read`; the position moves over what `::read` delivers, whatever the function makes of
it. -/
def read (plat : Platform) (s : Filing κ) (fd : Int) (n : Nat) (reply : Except ℕ+ ℕ+)
    (errno : Nat) (ec : ErrorCode) : Filing κ :=
  let data := s.disk.readAnswer fd n reply
  let r := File.read plat n data errno ec
  { s with
    disk := s.disk.advance fd (data.toOption.getD []).length
    reads := Function.update s.reads fd (s.reads fd ++ [r.tally]) }

/-- `file::write`. -/
def write (plat : Platform) (s : Filing κ) (fd : Int) (bytes : Bytes) (reply : Except ℕ+ ℕ+)
    (errno : Nat) (ec : ErrorCode) : Filing κ :=
  let r := File.write plat bytes.length (s.disk.writeAnswer fd bytes.length reply) errno ec
  { s with
    disk := s.disk.store fd (r.accepted bytes)
    writes := match s.disk.opens fd with
      | some desc =>
        Function.update s.writes desc.file
          (s.writes desc.file ++ [⟨bytes, r.rc, r.accepted bytes⟩])
      | none => s.writes }

/-- What is known of an open descriptor: a reader has got what is in front of its position, and a
writer nothing, as it is at the end. -/
structure Reads (s : Filing κ) (fd : Int) (desc : Description) (content : Bytes) : Prop where
  opened : s.disk.opens fd = some desc
  stored : s.disk.content desc.file = some content
  counted : ∀ r ∈ s.reads fd, r.Exact
  got : s.got fd = if desc.writable then [] else content.take desc.offset

structure Valid (initial : Nat → Bytes) (s : Filing κ) : Prop where
  kept : Program.Kept s.world
  neat : s.disk.Neat
  written : ∀ i, ∀ w ∈ s.writes i, w.Right
  stored : ∀ i, (s.disk.content i).getD [] = initial i ++ s.wrote i
  reads : ∀ fd, Program.Holds s.world .file fd → ∃ desc content, s.Reads fd desc content

variable {plat : Platform} {initial : Nat → Bytes} {s s' : Filing κ} {w : World} {d : Disk κ}
  {p : Place} {o : Obj} {fd : Int}

theorem fileAt_eq_some :
    s.fileAt p = some o ↔ s.world.objs p = some o ∧ o.kind.base = .file ∧ 0 ≤ o.h.fd := by
  simp [fileAt, Option.filter_eq_some_iff, Obj.opened, File.opened]

theorem holds_fileAt (h : s.fileAt p = some o) : Program.Holds s.world .file o.h.fd := by
  obtain ⟨hmem, hkind, hfd⟩ := fileAt_eq_some.mp h
  exact ⟨p, o, hmem, hfd, rfl, hkind⟩

/-- What a read stores is next in the file, and it returns how much that is. -/
theorem read_next (plat : Platform) {desc : Description} (hopen : d.opens fd = some desc) (n : Nat)
    (reply : Except ℕ+ ℕ+) (errno : Nat) (ec : ErrorCode) :
    let r := File.read plat n (d.readAnswer fd n reply) errno ec
    r.tally.Exact ∧ r.bytes <+: d.rest desc := by
  have hcases := Disk.read_cases plat hopen n reply errno ec
  dsimp only at hcases ⊢
  rcases hcases with ⟨hneg, hnil⟩ | ⟨k, -, hbytes, hrc⟩
  · exact ⟨.inr ⟨hneg, hnil⟩, hnil ▸ List.nil_prefix⟩
  · exact ⟨.inl hrc, hbytes ▸ List.take_prefix _ _⟩

/-- What a write has reported was taken, and only through a writer. -/
theorem write_taken (plat : Platform) {desc : Description} (hopen : d.opens fd = some desc)
    (bytes : Bytes) (reply : Except ℕ+ ℕ+) (errno : Nat) (ec : ErrorCode) :
    let r := File.write plat bytes.length (d.writeAnswer fd bytes.length reply) errno ec
    FileWrite.Right ⟨bytes, r.rc, r.accepted bytes⟩ ∧
      (desc.writable = false → r.accepted bytes = []) := by
  have hcases := Disk.write_cases plat hopen bytes reply errno ec
  dsimp only at hcases ⊢
  rcases hcases with ⟨hneg, hnil⟩ | ⟨k, hw, htaken, hrc⟩
  · exact ⟨⟨hnil ▸ List.nil_prefix, .inr ⟨hneg, hnil⟩⟩, fun _ => hnil⟩
  · refine ⟨⟨htaken ▸ List.take_prefix _ _, .inl ?_⟩, fun hnot => ?_⟩
    · simp [hrc, htaken]
    · simp [hw] at hnot

/-- One more read through a descriptor. -/
theorem got_concat {reads : List (Tally UInt8)} {t : Tally UInt8} (hfd : s.reads fd = reads ++ [t])
    (ht : t.Exact) : s.got fd = reportedBy reads ++ t.items := by
  rw [got, hfd, reportedBy_concat _ ht]

theorem Valid.read (hs : Valid initial s) (ho : s.fileAt p = some o) (n : Nat)
    (reply : Except ℕ+ ℕ+) (errno : Nat) (ec : ErrorCode) :
    Valid initial (s.read plat o.h.fd n reply errno ec) := by
  obtain ⟨desc, content, hopen, hcontent, hcounted, hgot⟩ := hs.reads _ (holds_fileAt ho)
  obtain ⟨content', hcontent', hle, hend⟩ := hs.neat.within _ _ hopen
  obtain rfl := Option.some.inj (hcontent'.symm.trans hcontent)
  obtain ⟨hexact, hnext⟩ := read_next plat hopen n reply errno ec
  have hrest : s.disk.rest desc = content'.drop desc.offset := by simp [Disk.rest, hcontent]
  have hneat := hs.neat.advance hopen hnext.length_le
  have hadvance := Disk.advance_of_opens hopen
    (File.read plat n (s.disk.readAnswer o.h.fd n reply) errno ec).bytes.length
  rw [Filing.read, ← Disk.read_stores plat s.disk o.h.fd n reply errno ec]
  generalize File.read plat n (s.disk.readAnswer o.h.fd n reply) errno ec = r
    at hexact hnext hneat hadvance ⊢
  rw [hadvance] at hneat ⊢
  refine ⟨hs.kept, hneat, hs.written, hs.stored, fun fd' hfd' => ?_⟩
  by_cases hfd : fd' = o.h.fd
  · subst hfd
    have hreads : Function.update s.reads o.h.fd (s.reads o.h.fd ++ [r.tally]) o.h.fd =
        s.reads o.h.fd ++ [r.tally] := Function.update_self _ _ _
    refine ⟨_, content', Function.update_self _ _ _, hcontent, ?_,
      (got_concat hreads hexact).trans ?_⟩
    · simp only [hreads]
      exact Tally.exact_concat hcounted hexact
    · rw [hrest] at hnext
      have htake : content'.take desc.offset ++ r.bytes =
          content'.take (desc.offset + r.bytes.length) := by
        rw [List.take_add, ← List.prefix_iff_eq_take.mp hnext]
      have hgot' : reportedBy (s.reads o.h.fd) =
          if desc.writable then [] else content'.take desc.offset := hgot
      have hsame : Description.writable { desc with offset := desc.offset + r.bytes.length } =
          desc.writable := rfl
      simp only [hgot', hsame, ReadResult.tally]
      cases hw : desc.writable with
      | false => simpa using htake
      | true =>
        rw [hend hw, List.drop_length] at hnext
        simpa using hnext
  · obtain ⟨desc', content, hopen', hcontent', hcounted', hgot'⟩ := hs.reads fd' hfd'
    have hreads : Function.update s.reads o.h.fd (s.reads o.h.fd ++ [r.tally]) fd' =
        s.reads fd' := Function.update_of_ne hfd _ _
    refine ⟨desc', content, (Function.update_of_ne hfd _ _).trans hopen', hcontent', ?_, ?_⟩
    · simpa only [hreads] using hcounted'
    · simpa only [got, hreads] using hgot'

/-- What is written is behind what the file had. -/
theorem Valid.stored_write (hs : Valid initial s) {desc : Description} {content : Bytes}
    (hcontent : s.disk.content desc.file = some content) {w : FileWrite} (hw : w.Right) (i : Nat) :
    (Function.update s.disk.content desc.file (some (content ++ w.taken)) i).getD [] =
      initial i ++
        (Function.update s.writes desc.file (s.writes desc.file ++ [w]) i).flatMap
          FileWrite.reported := by
  have hi := hs.stored i
  simp only [Function.update_apply]
  split
  · next heq =>
    rw [heq, hcontent] at hi
    simp only [Option.getD_some, heq, List.flatMap_append, List.flatMap_cons, List.flatMap_nil,
      List.append_nil, hw.reported_eq] at hi ⊢
    rw [hi, wrote, List.append_assoc]
  · exact hi

theorem Valid.write (hs : Valid initial s) (ho : s.fileAt p = some o) (bytes : Bytes)
    (reply : Except ℕ+ ℕ+) (errno : Nat) (ec : ErrorCode) :
    Valid initial (s.write plat o.h.fd bytes reply errno ec) := by
  obtain ⟨desc, content, hopen, hcontent, hcounted, hgot⟩ := hs.reads _ (holds_fileAt ho)
  obtain ⟨hright, hnone⟩ := write_taken plat hopen bytes reply errno ec
  obtain ⟨hneat, hstored⟩ := hs.neat.store hopen hcontent hnone
  obtain ⟨-, -, hopens⟩ := Disk.store_of_opens hopen hcontent
    ((File.write plat bytes.length (s.disk.writeAnswer o.h.fd bytes.length reply) errno
      ec).accepted bytes)
  have hwrote := hs.stored_write hcontent hright
  simp only [Filing.write, hopen]
  generalize File.write plat bytes.length (s.disk.writeAnswer o.h.fd bytes.length reply) errno
    ec = r at hright hnone hneat hstored hopens hwrote ⊢
  generalize r.accepted bytes = taken at hright hnone hneat hstored hopens hwrote ⊢
  refine ⟨hs.kept, hneat, fun i w hw => ?_, fun i => ?_, fun fd' hfd' => ?_⟩
  · simp only [Function.update_apply] at hw
    split at hw
    · rcases List.mem_append.mp hw with hw | hw
      · exact hs.written _ w hw
      · obtain rfl := List.mem_singleton.mp hw
        exact hright
    · exact hs.written i w hw
  · rw [hstored]
    exact hwrote i
  · obtain ⟨desc', content', hopen', hcontent', hcounted', hgot'⟩ := hs.reads fd' hfd'
    obtain ⟨content'', hcontent'', hle, -⟩ := hs.neat.within _ _ hopen'
    obtain rfl := Option.some.inj (hcontent''.symm.trans hcontent')
    by_cases hfd : fd' = o.h.fd
    · subst hfd
      obtain rfl := Option.some.inj (hopen'.symm.trans hopen)
      obtain rfl := Option.some.inj (hcontent'.symm.trans hcontent)
      have hsame : Description.writable { desc' with offset := desc'.offset + taken.length } =
          desc'.writable := rfl
      refine ⟨{ desc' with offset := desc'.offset + taken.length }, content'' ++ taken,
        by rw [hopens, Function.update_self], by rw [hstored, Function.update_self], hcounted',
        hgot'.trans ?_⟩
      rw [hsame]
      cases hw : desc'.writable with
      | false => simp [hnone hw]
      | true => rfl
    · have hopened : (s.disk.store o.h.fd taken).opens fd' = some desc' := by
        rw [hopens, Function.update_of_ne hfd, hopen']
      by_cases hfile : desc'.file = desc.file
      · rw [hfile, hcontent] at hcontent'
        obtain rfl := Option.some.inj hcontent'
        refine ⟨desc', content ++ taken, hopened, by rw [hstored, hfile, Function.update_self],
          hcounted', hgot'.trans ?_⟩
        rw [List.take_append_of_le_length hle]
      · refine ⟨desc', content'', hopened, ?_, hcounted', hgot'⟩
        rw [hstored, Function.update_of_ne hfile, hcontent']

section Steps

variable [DecidableEq κ]

def step (plat : Platform) : Machine (Filing κ) Action
  | s, .program a =>
    (Program.step plat s.world a).bind fun w =>
      (Machine.run Disk.careful s.disk (callsSince s.world.os w.os)).map fun disk =>
        ⟨w, disk, Program.relabel (fun _ => []) s.reads w (Program.callOf s.world a), s.writes⟩
  | s, .read p n reply errno ec =>
    (s.fileAt p).map fun o => s.read plat o.h.fd n reply errno ec
  | s, .write p bytes reply errno ec =>
    (s.fileAt p).map fun o => s.write plat o.h.fd bytes reply errno ec

/-- A file that was made or opened: nothing is read of it yet. -/
theorem opened_of_attempt {call : FactoryCall} {os : Os} {ec : ErrorCode} {c : Ret Obj}
    {d d' : Disk κ} (hneat : d'.Neat) (hkind : call.kind.base = .file)
    (hc : call.attempt plat os ec = some c) (hec : c.ec.isSet = false)
    (hrun : Machine.run Disk.careful d (callsSince os c.os) = some d') :
    ∃ desc content, d'.opens c.value.h.fd = some desc ∧ d'.content desc.file = some content ∧
      desc.offset = 0 := by
  cases call with
  | makeFile path oflags perms reply =>
    obtain rfl := Option.some.inj hc
    cases reply with
    | error e => simp [File.open_] at hec
    | ok a =>
      obtain ⟨hvalue, hcalls⟩ := Disk.calls_open plat os path oflags perms a ec
      rw [hcalls] at hrun
      obtain ⟨d', hcareful, heq⟩ := Machine.run_cons_eq_some.mp hrun
      obtain rfl := Option.some.inj heq
      obtain ⟨-, hnext⟩ := Option.ite_none_right_eq_some.mp hcareful
      have hnonneg := a.nonneg os.opened
      have hopened : ∃ i flags, d'.opens (a.pick os.opened) = some ⟨i, 0, flags⟩ := by
        rcases Disk.next_openFile_eq_some hnext with ⟨hneg, -⟩ | ⟨-, ⟨-, -, rfl⟩ | ⟨i, bytes,
          hbytes, -, rfl⟩⟩
        · omega
        · exact ⟨_, _, Function.update_self _ _ _⟩
        · exact ⟨_, _, Function.update_self _ _ _⟩
      obtain ⟨i, flags, hopen⟩ := hopened
      obtain ⟨content, hcontent, -⟩ := hneat.within _ _ hopen
      refine ⟨_, content, ?_, hcontent, rfl⟩
      simpa [Obj.ofHandle, hvalue, DeviceHandle.swap_eq] using hopen
  | _ => cases hkind

theorem Valid.program (hs : Valid initial s) {a : Program.Action}
    (h : Program.step plat s.world a = some w)
    (hrun : Machine.run Disk.careful s.disk (callsSince s.world.os w.os) = some d) :
    Valid initial
      ⟨w, d, Program.relabel (fun _ => []) s.reads w (Program.callOf s.world a), s.writes⟩ := by
  obtain ⟨hneat, hgrows⟩ := hs.neat.run hrun
  refine ⟨(hs.kept.step h).kept, hneat, hs.written, fun i => ?_, fun fd hfd => ?_⟩
  · refine Eq.trans ?_ (hs.stored i)
    rcases hgrows i with hsame | ⟨hnone, hnil⟩
    · rw [hsame]
    · rw [hnone, hnil]
      rfl
  · rcases Program.step_cases hs.kept h (fun _ => []) s.reads hfd with ⟨hold, hspares, hreads⟩ |
      ⟨-, v, call, ec, c, -, hkind, hc, hec, rfl, hos, hreads⟩
    · obtain ⟨desc, content, hopen, hcontent, hcounted, hgot⟩ := hs.reads fd hold
      have hcontent' : d.content desc.file = some content := by
        rcases hgrows desc.file with hsame | ⟨hnone, -⟩
        · rw [hsame, hcontent]
        · simp [hnone] at hcontent
      refine ⟨desc, content, (Disk.opens_run hspares hrun).trans hopen, hcontent', ?_, ?_⟩
      · simpa only [hreads] using hcounted
      · simpa only [got, hreads] using hgot
    · obtain ⟨desc, content, hopen, hcontent, hoffset⟩ :=
        opened_of_attempt hneat hkind.symm hc hec (hos ▸ hrun)
      refine ⟨desc, content, hopen, hcontent, ?_, ?_⟩
      · simp [hreads]
      · simp [got, hreads, hoffset]

theorem Valid.step (hs : Valid initial s) {a : Action} (h : step plat s a = some s') :
    Valid initial s' := by
  cases a with
  | program a =>
    obtain ⟨w, hw, h⟩ := Option.bind_eq_some_iff.mp h
    obtain ⟨d, hd, rfl⟩ := Option.map_eq_some_iff.mp h
    exact hs.program hw hd
  | read p n reply errno ec =>
    obtain ⟨o, ho, rfl⟩ := Option.map_eq_some_iff.mp h
    exact hs.read ho n reply errno ec
  | write p bytes reply errno ec =>
    obtain ⟨o, ho, rfl⟩ := Option.map_eq_some_iff.mp h
    exact hs.write ho bytes reply errno ec

omit [DecidableEq κ] in
theorem Valid.start (opened : Finset Int) (errno : Nat) {disk : Disk κ}
    (hnone : ∀ fd, disk.opens fd = none) :
    Valid (fun i => (disk.content i).getD []) (Filing.start opened errno disk) := by
  refine ⟨.start opened errno, ⟨?_, ?_⟩, by rintro i w ⟨⟩, fun i => (List.append_nil _).symm, ?_⟩
  · intro fd desc hopen
    cases (hnone fd).symm.trans hopen
  · intro fd fd' desc desc' hopen
    cases (hnone fd).symm.trans hopen
  · rintro fd ⟨p, o, ho, -⟩
    cases ho

/-- In every state that such a program reaches, each read through an open device has returned the
number of bytes that it has stored, or failed and stored none; a device that is open for reading
only has got, through all the places it was moved to, the beginning of what its file had at first
and what writes have reported as written to it, up to the position of its descriptor; and what a
file has is just that, as each write has returned the number of bytes that were taken of its
message, however many devices are open on it, and whatever numbers of descriptors were given out
again. -/
theorem run_files (plat : Platform) (opened : Finset Int) (errno : Nat) (disk : Disk κ)
    (hnone : ∀ fd, disk.opens fd = none) (actions : List Action) (s : Filing κ)
    (hrun : Machine.run (step plat) (start opened errno disk) actions = some s) (p : Place)
    (o : Obj) (ho : s.fileAt p = some o) :
    ∃ desc, s.disk.opens o.h.fd = some desc ∧
      (∀ r ∈ s.reads o.h.fd, r.Exact) ∧ (∀ w ∈ s.writes desc.file, w.Right) ∧
      s.disk.content desc.file =
        some ((disk.content desc.file).getD [] ++ s.wrote desc.file) ∧
      s.got o.h.fd = if desc.writable then []
        else ((disk.content desc.file).getD [] ++ s.wrote desc.file).take desc.offset := by
  have hs : Valid (fun i => (disk.content i).getD []) s :=
    Machine.run_keeps (fun _ _ _ hs hst => hs.step hst) (.start opened errno hnone) hrun
  obtain ⟨desc, content, hopen, hcontent, hcounted, hgot⟩ := hs.reads _ (holds_fileAt ho)
  have hstored := hs.stored desc.file
  rw [hcontent, Option.getD_some] at hstored
  exact ⟨desc, hopen, hcounted, hs.written _, by rw [hcontent, hstored], by rw [hgot, hstored]⟩

/-- A file is made and written, and read by a second device, which is moved between two reads. -/
def session : List Action :=
  [.program (.make 0 (.makeFile [97] writeOnly (ownerRead ||| ownerWrite) (.ok (.prefer 4)))
      .clear),
    .program (.make 1 (.makeFile [97] readOnly 0 (.ok (.prefer 5))) .clear),
    .write (.pointee 0) [8, 9] (.ok ⟨1, Nat.one_pos⟩) 0 .clear,
    .read (.pointee 1) 4 (.ok ⟨4, Nat.succ_pos 3⟩) 0 .clear,
    .program (.member (.deviceMove 2 1)),
    .write (.pointee 0) [7] (.ok ⟨1, Nat.one_pos⟩) 0 .clear,
    .read (.pointee 2) 4 (.ok ⟨4, Nat.succ_pos 3⟩) 0 .clear]

theorem run_files_session :
    ∃ s, Machine.run (step .linux) (start ∅ 0 Disk.page) session = some s ∧ s.wrote 1 = [8, 7] ∧
      s.reads 5 = [⟨1, [8]⟩, ⟨1, [7]⟩] ∧ ∃ desc, s.disk.opens 5 = some desc ∧
        (∀ r ∈ s.reads 5, r.Exact) ∧ (∀ w ∈ s.writes desc.file, w.Right) ∧
        s.disk.content desc.file =
          some ((Disk.page.content desc.file).getD [] ++ s.wrote desc.file) ∧
        s.got 5 = if desc.writable then []
          else ((Disk.page.content desc.file).getD [] ++ s.wrote desc.file).take desc.offset :=
  ⟨_, rfl, rfl, rfl, run_files .linux ∅ 0 Disk.page (fun _ => rfl) session _ rfl (.pointee 2)
    ⟨.file, ⟨5⟩, .zero⟩ rfl⟩

end Steps

end Filing

end PfsIo
