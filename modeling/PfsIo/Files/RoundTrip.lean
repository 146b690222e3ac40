import PfsIo.Files.Disk
import PfsIo.Library.Pump

/-!
# Writing a file and reading it back

A file is opened for writing, a list of bytes is written in blocks until all of it is taken, and the
file is closed; then it is opened for reading and read to the end. Every call of the kernel can move
fewer bytes than it is asked to.

## Main definitions

* `File.source`, `File.sink` — an open file as a device that is read or written.
* `Disk.save`, `Disk.load` — the two programs.

## Main results

* `Disk.save_spec`, `Disk.load_spec` — both programs end, and what they leave.
* `Disk.round_trip` — what is read is what was written, and what the file had behind it.
-/

namespace PfsIo

open Library Local

variable {κ : Type*}

/-- The disk, with the caller's error code and the state of `errno`. -/
structure Access (κ : Type*) where
  disk : Disk κ
  errno : Nat
  ec : ErrorCode

namespace File

/-- `file::read` through a descriptor. -/
def source (plat : Platform) (fd : Int) : Source (Access κ) (Except ℕ+ ℕ+) UInt8 where
  read n s reply :=
    let r := read plat n (s.disk.readAnswer fd n reply) s.errno s.ec
    (r.rc, r.bytes, ⟨s.disk.advance fd r.bytes.length, r.errno, r.ec⟩)
  rest s := (s.disk.opens fd).elim [] s.disk.rest

/-- `file::write` through a descriptor. -/
def sink (plat : Platform) (fd : Int) : Sink (Access κ) (Except ℕ+ ℕ+) UInt8 where
  write bytes s reply :=
    let r := write plat bytes.length (s.disk.writeAnswer fd bytes.length reply) s.errno s.ec
    (r.rc, ⟨s.disk.store fd (r.accepted bytes), r.errno, r.ec⟩)
  stored s := (s.disk.opens fd).elim [] fun desc =>
    ((s.disk.content desc.file).getD []).take desc.offset

/-- The descriptor is at a position of a file with the given content, and the files are found under
their names as in `d`. -/
def At (d : Disk κ) (fd : Int) (i : Nat) (flags : Nat) (content : Bytes) (s : Access κ) : Prop :=
  ∃ offset, s.disk.opens fd = some ⟨i, offset, flags⟩ ∧ s.disk.content i = some content ∧
    s.disk.fs = d.fs

/-- The file has the old content behind the position of the descriptor. -/
def Over (d : Disk κ) (fd : Int) (i : Nat) (flags : Nat) (old : Bytes) (s : Access κ) : Prop :=
  ∃ offset content, s.disk.opens fd = some ⟨i, offset, flags⟩ ∧ s.disk.content i = some content ∧
    s.disk.fs = d.fs ∧ offset ≤ content.length ∧ content.drop offset = old.drop offset

variable {plat : Platform} {d : Disk κ} {fd : Int} {i flags : Nat} {content old : Bytes}

theorem rest_source {s : Access κ} {offset : Nat}
    (hopen : s.disk.opens fd = some ⟨i, offset, flags⟩)
    (hcontent : s.disk.content i = some content) :
    (source plat fd).rest s = content.drop offset := by
  simp [source, hopen, Disk.rest, hcontent]

theorem stored_sink {s : Access κ} {offset : Nat}
    (hopen : s.disk.opens fd = some ⟨i, offset, flags⟩)
    (hcontent : s.disk.content i = some content) :
    (sink plat fd).stored s = content.take offset := by
  simp [sink, hopen, hcontent]

/-- What is left after the first items of a list were taken. -/
theorem delivers_take (xs : List UInt8) (n : Nat) (k : ℕ+) :
    Delivers n xs (xs.drop (xs.take (min n k)).length) (xs.take (min n k)).length
      (xs.take (min n k)) := by
  have hpos := k.pos
  by_cases hnil : xs.take (min n k) = []
  · rw [hnil]
    refine .none ?_ (by simp)
    rcases List.take_eq_nil_iff.mp hnil with hzero | hxs
    · exact .inr (by omega)
    · exact .inl hxs
  · refine .some _ hnil ?_ ?_
    · rw [List.length_take]
      omega
    · exact (List.prefix_iff_eq_append.mp (List.take_prefix _ _)).symm

theorem read_source {s : Access κ} (hs : At d fd i flags content s) (n : Nat)
    (reply : Except ℕ+ ℕ+) :
    At d fd i flags content ((source plat fd).read n s reply).2.2 ∧
      Delivers n ((source plat fd).rest s)
        ((source plat fd).rest ((source plat fd).read n s reply).2.2)
        ((source plat fd).read n s reply).1 ((source plat fd).read n s reply).2.1 := by
  obtain ⟨offset, hopen, hcontent, hfs⟩ := hs
  have hcases := Disk.read_cases plat hopen n reply s.errno s.ec
  have hadvance := Disk.advance_of_opens hopen
    (read plat n (s.disk.readAnswer fd n reply) s.errno s.ec).bytes.length
  have hrest : s.disk.rest ⟨i, offset, flags⟩ = content.drop offset := by simp [Disk.rest, hcontent]
  rw [rest_source hopen hcontent]
  simp only [source]
  generalize read plat n (s.disk.readAnswer fd n reply) s.errno s.ec = r at hcases hadvance ⊢
  have hat : At d fd i flags content ⟨s.disk.advance fd r.bytes.length, r.errno, r.ec⟩ := by
    rw [hadvance]
    exact ⟨_, Function.update_self _ _ _, hcontent, hfs⟩
  refine ⟨hat, ?_⟩
  have hnext : (Option.elim ((s.disk.advance fd r.bytes.length).opens fd) []
      (s.disk.advance fd r.bytes.length).rest) = (content.drop offset).drop r.bytes.length := by
    rw [hadvance]
    simp [Disk.rest, hcontent]
  rw [hnext]
  rcases hcases with ⟨hneg, hnil⟩ | ⟨k, -, hbytes, hrc⟩
  · rw [hnil]
    exact .failed _ hneg rfl
  · rw [hrc, hbytes, hrest]
    exact delivers_take _ n k

theorem lawful_source : (source plat fd).Lawful (At d fd i flags content) :=
  ⟨fun n _ reply hs => (read_source hs n reply).1, fun n _ reply hs => (read_source hs n reply).2⟩

theorem write_sink {s : Access κ} (hs : Over d fd i flags old s) (bytes : Bytes)
    (reply : Except ℕ+ ℕ+) :
    Over d fd i flags old ((sink plat fd).write bytes s reply).2 ∧
      Takes bytes ((sink plat fd).stored s)
        ((sink plat fd).stored ((sink plat fd).write bytes s reply).2)
        ((sink plat fd).write bytes s reply).1 := by
  obtain ⟨offset, content, hopen, hcontent, hfs, hle, hdrop⟩ := hs
  have hcases := Disk.write_cases plat hopen bytes reply s.errno s.ec
  have hstore := Disk.store_of_opens hopen hcontent
    ((write plat bytes.length (s.disk.writeAnswer fd bytes.length reply) s.errno s.ec).accepted
      bytes)
  rw [stored_sink hopen hcontent]
  simp only [sink]
  generalize write plat bytes.length (s.disk.writeAnswer fd bytes.length reply) s.errno s.ec = r
    at hcases hstore ⊢
  dsimp only at hcases
  generalize r.accepted bytes = accepted at hcases hstore ⊢
  obtain ⟨hfs', hcontent', hopens'⟩ := hstore
  have hwritten := Disk.written_of_le hle accepted
  have hlen : (content.take offset).length = offset := List.length_take_of_le hle
  refine ⟨⟨offset + accepted.length, Disk.written content offset accepted, ?_, ?_, hfs'.trans hfs,
    ?_, ?_⟩, ?_⟩
  · rw [hopens', Function.update_self]
  · rw [hcontent', Function.update_self]
  · rw [hwritten]
    simp only [List.length_append, hlen]
    omega
  · rw [hwritten, ← List.append_assoc, List.drop_left' (by simp [hlen]), ← List.drop_drop,
      hdrop, List.drop_drop]
  · have hstored : Option.elim ((s.disk.store fd accepted).opens fd) []
        (fun desc => (((s.disk.store fd accepted).content desc.file).getD []).take desc.offset) =
          content.take offset ++ accepted := by
      rw [hopens', hcontent', Function.update_self]
      simp only [Option.elim_some, Function.update_self, Option.getD_some]
      rw [hwritten, ← List.append_assoc, List.take_left' (by simp [hlen])]
    rw [hstored]
    rcases hcases with ⟨hneg, hnil⟩ | ⟨k, -, haccepted, hrc⟩
    · rw [hnil, List.append_nil]
      exact .failed _ hneg rfl
    · have hpos := k.pos
      rw [hrc, haccepted]
      refine .some _ (Nat.min_le_left _ _) (fun hzero => ?_) rfl
      exact List.length_eq_zero_iff.mp (by omega)

theorem lawful_sink : (sink plat fd).Lawful (Over d fd i flags old) :=
  ⟨fun bytes _ reply hs => (write_sink hs bytes reply).1,
    fun bytes _ reply hs => (write_sink hs bytes reply).2⟩

end File

namespace Disk

variable [DecidableEq κ]

/-- What a program that writes a file leaves. -/
structure Saved (κ : Type*) where
  disk : Disk κ
  os : Os
  /-- The bytes that were not written. -/
  left : Bytes
  /-- What the last write has returned. -/
  last : Int

/-- A file is opened, written in blocks and closed. -/
def save (plat : Platform) (d : Disk κ) (os : Os) (path : Bytes) (oflags perms : Nat) (a : Alloc)
    (bytes : Bytes) (chunk : Nat) (replies : List (Except ℕ+ ℕ+)) : Option (Saved κ) :=
  let c := File.open_ plat os path oflags perms (.ok a) .clear
  (Machine.run next d (callsSince os c.os)).bind fun d =>
    (((File.sink plat c.value.fd).push chunk).run ⟨⟨d, c.os.errno, c.ec⟩, bytes, 0⟩ replies).bind
      fun p =>
        let e := File.close plat c.value c.os {}
        (Machine.run next p.1.device.disk (callsSince c.os e.os)).map fun d =>
          ⟨d, e.os, p.1.source, p.1.last⟩

/-- What a program that reads a file has got. -/
structure Loaded where
  collected : Bytes
  /-- What the last read has returned. -/
  last : Int
  /-- What each read has returned, with the bytes that it has stored. -/
  reads : List (Tally UInt8)

/-- A file is opened for reading and read to the end. -/
def load (plat : Platform) (d : Disk κ) (os : Os) (path : Bytes) (a : Alloc) (size : Nat)
    (replies : List (Except ℕ+ ℕ+)) : Option Loaded :=
  let c := File.open_ plat os path readOnly 0 (.ok a) .clear
  (Machine.run next d (callsSince os c.os)).bind fun d =>
    (((File.source plat c.value.fd).drain size).run ⟨⟨d, c.os.errno, c.ec⟩, [], 0, []⟩ replies).map
      fun t => ⟨t.1.collected, t.1.last, t.1.reads⟩

/-- What a file has before the first write through a descriptor opened with the flags. -/
def before (d : Disk κ) (path : Bytes) (oflags : Nat) : Bytes :=
  match d.fs.lookup (cStr path) with
  | some i => if hasFlag oflags truncate then [] else (d.content i).getD []
  | none => []

variable {plat : Platform} {d d' : Disk κ} {os : Os} {path : Bytes} {oflags perms : Nat}
  {errno : Nat} {ec : ErrorCode}

theorem hasFlag_creat (h : hasFlag oflags writeOnly = true) :
    hasFlag (File.nativeFlags oflags) File.oCreat = true := by
  unfold File.nativeFlags
  simp only [h, Bool.true_and]
  cases hasFlag oflags readOnly <;> cases hasFlag oflags nonBlocking <;>
    cases hasFlag oflags truncate <;> decide

theorem hasFlag_trunc (oflags : Nat) :
    hasFlag (File.nativeFlags oflags) File.oTrunc = hasFlag oflags truncate := by
  unfold File.nativeFlags
  cases hasFlag oflags writeOnly <;> cases hasFlag oflags readOnly <;>
    cases hasFlag oflags nonBlocking <;> cases hasFlag oflags truncate <;> decide

/-- A file that is opened is made, or found. -/
theorem run_open {mode : Nat} {fd : Int} (hfd : 0 ≤ fd)
    (hrun : Machine.run next d [.openFile (cStr path) (File.nativeFlags oflags) mode fd] =
      some d') : ∃ i, d'.fs.lookup (cStr path) = some i ∧
        d'.opens fd = some ⟨i, 0, File.nativeFlags oflags⟩ ∧
        d'.content i = some (d.before path oflags) := by
  obtain ⟨d', hnext, heq⟩ := Machine.run_cons_eq_some.mp hrun
  obtain rfl := Option.some.inj heq
  rcases next_openFile_eq_some hnext with ⟨hneg, -⟩ | ⟨-, ⟨hlookup, -, rfl⟩ | ⟨i, bytes, hbytes,
    hlookup, rfl⟩⟩
  · omega
  · refine ⟨d.fs.next, Local.FileSystem.lookup_create _ _, Function.update_self _ _ _, ?_⟩
    simp [openNew, before, hlookup]
  · refine ⟨i, hlookup, Function.update_self _ _ _, ?_⟩
    simp only [openOld, before, hlookup, Function.update_self, hbytes, Option.getD_some,
      hasFlag_trunc]

/-- The path leads to an ordinary file, or to none that the flags let be made. -/
def CanOpen (d : Disk κ) (path : Bytes) (oflags : Nat) : Prop :=
  match d.fs.lookup (cStr path) with
  | some i => (d.content i).isSome
  | none => hasFlag oflags writeOnly = true

theorem CanOpen.run (h : d.CanOpen path oflags) (mode : Nat) (fd : Int) :
    ∃ d', Machine.run next d [.openFile (cStr path) (File.nativeFlags oflags) mode fd] =
      some d' := by
  suffices hnext : ∃ d', next d (.openFile (cStr path) (File.nativeFlags oflags) mode fd) =
      some d' by
    obtain ⟨d', hnext⟩ := hnext
    exact ⟨d', by rw [Machine.run_cons, hnext]; rfl⟩
  simp only [next]
  split
  · split
    · next hlookup =>
      simp only [CanOpen, hlookup] at h
      exact ⟨_, if_pos (hasFlag_creat h)⟩
    · next i hlookup =>
      simp only [CanOpen, hlookup] at h
      split
      · exact ⟨_, rfl⟩
      · next hnone => simp [hnone] at h
  · exact ⟨d, rfl⟩

/-- A descriptor that is closed leaves the files as they are. -/
theorem run_close (plat : Platform) (h : DeviceHandle) (os : Os) (r : CloseReplies) (d : Disk κ) :
    ∃ d', Machine.run next d (callsSince os (File.close plat h os r).os) = some d' ∧
      d'.fs = d.fs ∧ d'.content = d.content := by
  simp only [File.close]
  split
  · have hcalls : ∃ rc wasOpen rc', callsSince os ((os.check (.fsync h.fd) r.fsync).os.close h.fd
        r.close).os = [.fsync h.fd rc, .close h.fd wasOpen rc'] :=
      ⟨_, _, _, callsSince_of_appends (Os.log_check _ _ _) (Os.log_close _ _ _)⟩
    obtain ⟨rc, wasOpen, rc', hcalls⟩ := hcalls
    rw [hcalls]
    exact ⟨_, rfl, rfl, rfl⟩
  · exact ⟨d, by simp [callsSince], rfl, rfl⟩

/-- A program that writes a file ends, and what it has written is in the file, in front of what was
there behind it. -/
theorem save_spec (hopen : d.CanOpen path oflags) (a : Alloc) (bytes : Bytes) {chunk : Nat}
    (hchunk : 0 < chunk) (replies : Nat → Except ℕ+ ℕ+) :
    ∃ n saved, save plat d os path oflags perms a bytes chunk ((List.range n).map replies) =
        some saved ∧ ∃ m ≤ bytes.length, saved.left = bytes.drop m ∧
          (0 ≤ saved.last ↔ m = bytes.length) ∧ ∃ i, saved.disk.fs.lookup (cStr path) = some i ∧
            saved.disk.content i = some (bytes.take m ++ (d.before path oflags).drop m) := by
  obtain ⟨hvalue, hcalls⟩ := calls_open plat os path oflags perms a .clear
  obtain ⟨d₁, hd₁⟩ := hopen.run (File.nativeMode oflags perms) (a.pick os.opened)
  obtain ⟨i, hlookup, hopens, hcontent⟩ := run_open (a.nonneg _) hd₁
  have hover : ∀ errno ec, File.Over d₁ (a.pick os.opened) i (File.nativeFlags oflags)
      (d.before path oflags) ⟨d₁, errno, ec⟩ :=
    fun _ _ => ⟨0, _, hopens, hcontent, rfl, Nat.zero_le _, rfl⟩
  let c := File.open_ plat os path oflags perms (.ok a) .clear
  have hlawful : (File.sink plat (a.pick os.opened)).Lawful
      (File.Over d₁ (a.pick os.opened) i (File.nativeFlags oflags) (d.before path oflags)) :=
    File.lawful_sink
  obtain ⟨n, hn⟩ := Sink.push_ends (p := ⟨⟨d₁, c.os.errno, c.ec⟩, bytes, 0⟩) hlawful hchunk
    (hover _ _) replies
  obtain ⟨⟨p, rest⟩, hp⟩ := Option.isSome_iff_exists.mp hn
  obtain ⟨⟨offset, content, hopens', hcontent', hfs, hle, hdrop⟩, hstored, hend⟩ :=
    Sink.push_spec hlawful hchunk (hover _ _) (Int.le_refl 0) hp
  rw [File.stored_sink hopens' hcontent', File.stored_sink hopens hcontent, List.take_zero,
    List.nil_append] at hstored
  obtain ⟨d₂, hd₂, hfs₂, hcontent₂⟩ := run_close plat c.value c.os {} p.device.disk
  have hlen : (content.take offset).length = offset := List.length_take_of_le hle
  have hbytes : content.take offset ++ p.source = bytes := hstored
  have hle' : offset ≤ bytes.length := by
    rw [← hbytes, List.length_append, hlen]
    omega
  refine ⟨n, ⟨d₂, (File.close plat c.value c.os {}).os, p.source, p.last⟩, ?_, offset, hle', ?_, ?_,
    i, ?_, ?_⟩
  · simp only [save, hcalls, hd₁, Option.bind_some, hvalue]
    rw [hp, Option.bind_some, ← hvalue]
    exact congrArg (Option.map _) hd₂
  · rw [← hbytes, List.drop_left' hlen]
  · have hsource := congrArg List.length hbytes
    rw [List.length_append, hlen] at hsource
    rcases hend with ⟨hnil, hlast⟩ | ⟨hne, hlast⟩
    · simp only [hnil, List.length_nil] at hsource
      exact iff_of_true hlast (by omega)
    · have hpos := List.length_pos_iff.mpr hne
      exact iff_of_false (by simpa using hlast) (by omega)
  · rw [hfs₂, hfs, hlookup]
  · rw [hcontent₂, hcontent', ← hbytes, List.take_left' hlen, ← hdrop, List.take_append_drop]

/-- A program that reads a file ends, and has collected what the file has from its beginning, all of
it unless a read has failed; each read has returned the number of bytes that it has stored. -/
theorem load_spec (hfile : ∃ i bytes, d.fs.lookup (cStr path) = some i ∧ d.content i = some bytes)
    (a : Alloc) {size : Nat} (hsize : 0 < size) (replies : Nat → Except ℕ+ ℕ+) :
    ∃ n t, load plat d os path a size ((List.range n).map replies) = some t ∧
      (∀ r ∈ t.reads, r.Exact) ∧ t.collected <+: d.before path readOnly ∧
      (0 ≤ t.last → t.collected = d.before path readOnly) := by
  obtain ⟨i, bytes, hlookup, hbytes⟩ := hfile
  have hopen : d.CanOpen path readOnly := by simp [CanOpen, hlookup, hbytes]
  obtain ⟨hvalue, hcalls⟩ := calls_open plat os path readOnly 0 a .clear
  obtain ⟨d₁, hd₁⟩ := hopen.run (File.nativeMode readOnly 0) (a.pick os.opened)
  obtain ⟨j, -, hopens, hcontent⟩ := run_open (a.nonneg _) hd₁
  have hat : ∀ errno ec, File.At d₁ (a.pick os.opened) j (File.nativeFlags readOnly)
      (d.before path readOnly) ⟨d₁, errno, ec⟩ :=
    fun _ _ => ⟨0, hopens, hcontent, rfl⟩
  let c := File.open_ plat os path readOnly 0 (.ok a) .clear
  have hlawful : (File.source plat (a.pick os.opened)).Lawful
      (File.At d₁ (a.pick os.opened) j (File.nativeFlags readOnly) (d.before path readOnly)) :=
    File.lawful_source
  have hends : ((File.source plat (a.pick os.opened)).drain size).Ends
      ⟨⟨d₁, c.os.errno, c.ec⟩, [], 0, []⟩ replies := Source.drain_ends hlawful (hat _ _) replies
  obtain ⟨n, hn⟩ := hends
  obtain ⟨⟨t, rest⟩, ht⟩ := Option.isSome_iff_exists.mp hn
  have hcounted := Source.drain_counted hlawful (hat _ _) 0 ht
  obtain ⟨hcontent', hend⟩ := Source.drain_spec hlawful hsize (hat _ _) 0 ht
  have hrest : (File.source plat (a.pick os.opened)).rest ⟨d₁, c.os.errno, c.ec⟩ =
      (d.before path readOnly).drop 0 := File.rest_source hopens hcontent
  rw [List.drop_zero] at hrest
  refine ⟨n, ⟨t.collected, t.last, t.reads⟩, ?_, hcounted, ?_, ?_⟩
  · simp only [load, hcalls, hd₁, Option.bind_some, hvalue]
    exact congrArg (Option.map _) ht
  · rw [← hrest, ← hcontent']
    exact List.prefix_append _ _
  · intro hlast
    rcases hend with ⟨-, hcollected⟩ | hneg
    · rw [hcollected, hrest]
    · exact absurd hlast (Int.not_le.mpr hneg)

omit [DecidableEq κ] in
theorem before_readOnly {i : Nat} {bytes : Bytes} (hlookup : d.fs.lookup (cStr path) = some i)
    (hbytes : d.content i = some bytes) : d.before path readOnly = bytes := by
  have htrunc : hasFlag readOnly truncate = false := by decide
  simp [before, hlookup, hbytes, htrunc]

/-- A file that was written in blocks of any size is read in blocks of any size as what was written,
with what the file has behind it, however few bytes each call of the kernel moves; each read has
returned the number of bytes that it has stored. -/
theorem round_trip (hopen : d.CanOpen path oflags) (a : Alloc) (bytes : Bytes) {chunk size : Nat}
    (hchunk : 0 < chunk) (hsize : 0 < size) (replies : Nat → Except ℕ+ ℕ+) :
    ∃ n saved, save plat d os path oflags perms a bytes chunk ((List.range n).map replies) =
        some saved ∧ ∃ m ≤ bytes.length, saved.left = bytes.drop m ∧
          (0 ≤ saved.last ↔ m = bytes.length) ∧
      ∀ (a' : Alloc) (replies' : Nat → Except ℕ+ ℕ+), ∃ n' t,
        load plat saved.disk saved.os path a' size ((List.range n').map replies') = some t ∧
          (∀ r ∈ t.reads, r.Exact) ∧
          t.collected <+: bytes.take m ++ (d.before path oflags).drop m ∧
          (0 ≤ t.last → t.collected = bytes.take m ++ (d.before path oflags).drop m) := by
  obtain ⟨n, saved, hsave, m, hm, hleft, hlast, i, hlookup, hcontent⟩ :=
    save_spec hopen a bytes hchunk replies
  refine ⟨n, saved, hsave, m, hm, hleft, hlast, fun a' replies' => ?_⟩
  obtain ⟨n', t, hload, hcounted, hcollected⟩ :=
    load_spec ⟨i, _, hlookup, hcontent⟩ a' hsize replies'
  rw [before_readOnly hlookup hcontent] at hcollected
  exact ⟨n', t, hload, hcounted, hcollected⟩

/-- Two bytes of the page are written again. -/
theorem round_trip_page :
    page.CanOpen [33] writeOnly ∧
    ∃ n saved, save .linux page ⟨∅, 0, []⟩ [33] writeOnly (ownerRead ||| ownerWrite) (.prefer 3)
        [8, 9] 1 ((List.range n).map fun _ => .ok ⟨1, Nat.one_pos⟩) = some saved ∧
      ∃ m ≤ 2, saved.left = [8, 9].drop m ∧ (0 ≤ saved.last ↔ m = 2) ∧
      ∀ (a' : Alloc) (replies' : Nat → Except ℕ+ ℕ+), ∃ n' t,
        load .linux saved.disk saved.os [33] a' 3 ((List.range n').map replies') = some t ∧
          (∀ r ∈ t.reads, r.Exact) ∧
          t.collected <+: [8, 9].take m ++ [1, 2, 3, 4].drop m ∧
          (0 ≤ t.last → t.collected = [8, 9].take m ++ [1, 2, 3, 4].drop m) :=
  have hopen : page.CanOpen [33] writeOnly := rfl
  ⟨hopen, round_trip hopen (.prefer 3) [8, 9] Nat.one_pos (Nat.succ_pos 2) _⟩

end Disk

end PfsIo
