import PfsIo.Local.Open

/-!
# Opening a local server

What `local::open_server` calls and how it ends, and what its calls do to the file system:
it deletes what the name refers to, whatever that is, before the steps that can still
fail, and takes nothing back.

## Main results

* `Local.openServer_of_socket` — the calls and the end, once there is a socket.
* `Local.openServer_effects_iff` — when a failure leaves the file system as it was.
-/

namespace PfsIo.Local

section Exits

variable (plat : Platform) (os : Os) {name : Bytes} (nonblocking : Bool) (n : Int)
  {r : ServerReplies} (ec : ErrorCode)

/-- What a call returns that answers with zero or an error. -/
def rcOf : Reply → Int
  | .ok _ => 0
  | .error _ => -1

/-- The calls that follow the one of `::socket`, up to the clean-up. -/
def serverCalls (name : Bytes) (n : Int) (r : ServerReplies) (fd : Int) : List Call :=
  [.unlink (cStr (sunPath name)) (rcOf r.unlink), .bind fd (sockaddrUn name) (rcOf r.bind)] ++
    if r.bind.isOk then [.listen fd n (rcOf r.listen)] else []

theorem openServer_of_long (h : ¬ Fits name) :
    openServer plat os name nonblocking n r ec =
      ⟨⟨-1⟩, makeErrorCode .invalidArgument, os⟩ := by
  have hlong : sunPathSize < name.length + 1 := Nat.not_le.mp h
  simp [openServer, hlong, handleOf]

theorem openServer_of_socket_error (h : Fits name) {e : ℕ+} (hsocket : r.socket = .error e) :
    openServer plat os name nonblocking n r ec =
      ⟨⟨-1⟩, getLastSystemError plat e, (os.newFd (socketCall nonblocking) (.error e)).os⟩ := by
  have hfit : ¬ sunPathSize < name.length + 1 := Nat.not_lt.mpr h
  simp [openServer, hfit, hsocket, socketCall, handleOf]

/-- The state before the clean-up. -/
def serverOs (os : Os) (name : Bytes) (nonblocking : Bool) (n : Int) (r : ServerReplies)
    (a : Alloc) : Os :=
  let s := os.newFd (socketCall nonblocking) (.ok a)
  let u := s.os.check (.unlink (cStr (sunPath name))) r.unlink
  let b := u.os.check (.bind s.rc (sockaddrUn name)) r.bind
  if r.bind.isOk then (b.os.check (.listen s.rc n) r.listen).os else b.os

/-- The error code before the clean-up. -/
def serverCode (plat : Platform) (r : ServerReplies) (ec : ErrorCode) : ErrorCode :=
  match r.bind, r.listen with
  | .error e, _ => getLastSystemError plat e
  | .ok _, .error e => getLastSystemError plat e
  | .ok _, .ok _ => ec

/-- Once there is a socket, all other ways out lead through the clean-up. -/
theorem openServer_of_socket (h : Fits name) {a : Alloc} (hsocket : r.socket = .ok a) :
    openServer plat os name nonblocking n r ec =
      cleanUp (a.pick os.opened) (serverCode plat r ec) (serverOs os name nonblocking n r a)
        r.close := by
  have hfit : ¬ sunPathSize < name.length + 1 := Nat.not_lt.mpr h
  have hnonneg : ¬ a.pick os.opened < 0 := Int.not_lt.mpr (a.nonneg _)
  have hhandle : handleOf (-1) = ⟨-1⟩ := rfl
  obtain ⟨socket, unlink, bind, listen, close⟩ := r
  obtain rfl : socket = .ok a := hsocket
  cases bind <;> cases listen <;>
    simp [openServer, cleanUp, serverCode, serverOs, socketCall, hfit, hnonneg, hhandle,
      handleOf_pick]

theorem opened_serverOs (a : Alloc) :
    (serverOs os name nonblocking n r a).opened = insert (a.pick os.opened) os.opened := by
  unfold serverOs
  split <;> simp

theorem rc_check (call : Int → Call) (reply : Reply) : (os.check call reply).rc = rcOf reply := by
  cases reply <;> rfl

theorem rc_close (fd : Int) (reply : Reply) : (os.close fd reply).rc = rcOf reply := by
  cases reply <;> rfl

theorem log_serverOs (a : Alloc) :
    (serverOs os name nonblocking n r a).log = os.log ++
      (socketCall nonblocking (a.pick os.opened) :: serverCalls name n r (a.pick os.opened)) := by
  unfold serverOs serverCalls
  split <;> simp [rc_check]

theorem isSet_serverCode :
    (serverCode plat r ec).isSet = true ↔
      ec.isSet = true ∨ r.bind.isOk = false ∨ r.listen.isOk = false := by
  obtain ⟨socket, unlink, bind, listen, close⟩ := r
  cases bind <;> cases listen <;> simp [serverCode]

theorem serverCode_of_done (hbind : r.bind.isOk = true) (hlisten : r.listen.isOk = true) :
    serverCode plat r ec = ec := by
  obtain ⟨u, hbind⟩ := isOk_iff.mp hbind
  obtain ⟨v, hlisten⟩ := isOk_iff.mp hlisten
  simp [serverCode, hbind, hlisten]

/-- An error is one that was there on entry, or that of a step that has failed; whether
`unlink` fails is not asked. -/
theorem isSet_openServer : (openServer plat os name nonblocking n r ec).ec.isSet = true ↔
    ec.isSet = true ∨ ¬ (Fits name ∧ r.socket.isOk = true ∧ r.bind.isOk = true ∧
      r.listen.isOk = true) := by
  by_cases hfit : Fits name
  · cases hsocket : r.socket with
    | error e =>
      rw [openServer_of_socket_error plat os nonblocking n ec hfit hsocket]
      simp
    | ok a =>
      rw [openServer_of_socket plat os nonblocking n ec hfit hsocket, cleanUp_ec,
        isSet_serverCode]
      simp only [hfit, isOk_ok, true_and, not_and_or, Bool.not_eq_true]
  · rw [openServer_of_long plat os nonblocking n ec hfit]
    simp [hfit]

end Exits

/-- Directory entries and the files they refer to, each file with a number of its own.
What kind of file it is plays no part: `unlink` removes sockets, in use or not, and
ordinary files alike. -/
structure FileSystem (κ : Type*) where
  /-- The entry that a path leads to. -/
  resolve : Bytes → κ
  entry : κ → Option Nat
  /-- The number of the next file. -/
  next : Nat
  used : ∀ k file, entry k = some file → file < next

namespace FileSystem

variable {κ : Type*} [DecidableEq κ] (fs : FileSystem κ) (path : Bytes)

omit [DecidableEq κ] in
/-- The file that a path refers to. -/
def lookup : Option Nat := fs.entry (fs.resolve path)

/-- A successful `unlink`. -/
def unlink : FileSystem κ where
  resolve := fs.resolve
  entry := Function.update fs.entry (fs.resolve path) none
  next := fs.next
  used k file h := by
    by_cases hk : k = fs.resolve path
    · simp [hk] at h
    · exact fs.used k file (by simpa [hk] using h)

/-- The new file of a successful `bind`. -/
def create : FileSystem κ where
  resolve := fs.resolve
  entry := Function.update fs.entry (fs.resolve path) (some fs.next)
  next := fs.next + 1
  used k file h := by
    by_cases hk : k = fs.resolve path
    · simp only [hk, Function.update_self, Option.some.injEq] at h
      omega
    · exact Nat.lt_succ_of_lt (fs.used k file (by simpa [hk] using h))

/-- The path of a local address; an address without one is in a name space of its own. -/
def boundPath (addr : Bytes) : Bytes := cStr (addr.drop 2)

/-- What a call on local sockets does to the file system. -/
def effect (fs : FileSystem κ) : Call → FileSystem κ
  | .unlink path rc => if rc = 0 then fs.unlink path else fs
  | .bind _ addr rc =>
    if rc = 0 ∧ boundPath addr ≠ [] then fs.create (boundPath addr) else fs
  | _ => fs

/-- The effects of calls in turn. -/
def after (calls : List Call) : FileSystem κ := calls.foldl effect fs

omit [DecidableEq κ] in
theorem lookup_ne_next : fs.lookup path ≠ some fs.next := by
  intro h
  exact absurd (fs.used _ _ h) (Nat.lt_irrefl _)

theorem lookup_unlink : (fs.unlink path).lookup path = none := by
  simp [lookup, unlink]

theorem lookup_create : (fs.create path).lookup path = some fs.next := by
  simp [lookup, create]

/-- Nothing is removed where nothing is. -/
theorem lookup_unlink_of_absent (h : fs.lookup path = none) (p : Bytes) :
    (fs.unlink path).lookup p = fs.lookup p := by
  simp only [lookup, unlink] at h ⊢
  rw [← h, Function.update_eq_self]

end FileSystem

section Effects

variable {κ : Type*} [DecidableEq κ] {plat : Platform} {os : Os} {name : Bytes}
  {nonblocking : Bool} {n : Int} {r : ServerReplies} {ec : ErrorCode}

theorem boundPath_sockaddrUn (name : Bytes) :
    FileSystem.boundPath (sockaddrUn name) = cStr (sunPath name) := by
  simp [FileSystem.boundPath, sockaddrUn]

/-- The name's file is deleted, or a new one is made. -/
def Touches (fs : FileSystem κ) (name : Bytes) (r : ServerReplies) : Prop :=
  let path := cStr (sunPath name)
  r.unlink.isOk = true ∧ (fs.lookup path).isSome ∨ r.bind.isOk = true ∧ path ≠ []

theorem effect_unlink (fs : FileSystem κ) (path : Bytes) (reply : Reply) :
    fs.effect (.unlink path (rcOf reply)) = if reply.isOk then fs.unlink path else fs := by
  cases reply <;> simp [FileSystem.effect, rcOf]

theorem effect_bind (fs : FileSystem κ) (fd : Int) (name : Bytes) (reply : Reply) :
    fs.effect (.bind fd (sockaddrUn name) (rcOf reply)) =
      if reply.isOk = true ∧ cStr (sunPath name) ≠ [] then fs.create (cStr (sunPath name))
      else fs := by
  cases reply <;> simp [FileSystem.effect, boundPath_sockaddrUn, rcOf]

/-- Deleting changes nothing exactly when it fails or there is nothing to delete. -/
theorem lookup_removed (fs : FileSystem κ) (path : Bytes) (reply : Reply) :
    (∀ p, (if reply.isOk then fs.unlink path else fs).lookup p = fs.lookup p) ↔
      ¬ (reply.isOk = true ∧ (fs.lookup path).isSome) := by
  cases reply with
  | error e => simp
  | ok u =>
    cases hfile : fs.lookup path with
    | none => simp [FileSystem.lookup_unlink_of_absent fs path hfile]
    | some file =>
      refine iff_of_false (fun hall => ?_) (by simp)
      have hsame := hall path
      simp [FileSystem.lookup_unlink, hfile] at hsame

/-- The calls leave every path with its file unless the name's file was touched. -/
theorem after_serverCalls (fs : FileSystem κ) (name : Bytes) (n : Int) (r : ServerReplies)
    (fd : Int) :
    (∀ path, (fs.after (serverCalls name n r fd)).lookup path = fs.lookup path) ↔
      ¬ Touches fs name r := by
  have hcalls : fs.after (serverCalls name n r fd) =
      (fs.effect (.unlink (cStr (sunPath name)) (rcOf r.unlink))).effect
        (.bind fd (sockaddrUn name) (rcOf r.bind)) := by
    unfold FileSystem.after serverCalls
    split <;> rfl
  rw [hcalls, effect_bind, effect_unlink, Touches, not_or]
  by_cases hcreate : r.bind.isOk = true ∧ cStr (sunPath name) ≠ []
  · refine iff_of_false (fun hall => ?_) fun h => h.2 hcreate
    have hsame := hall (cStr (sunPath name))
    have hnext : (if r.unlink.isOk then fs.unlink (cStr (sunPath name)) else fs).next =
        fs.next := by
      split <;> rfl
    rw [if_pos hcreate, FileSystem.lookup_create, hnext] at hsame
    exact fs.lookup_ne_next _ hsame.symm
  · rw [if_neg hcreate, lookup_removed]
    simp [hcreate]

/-- Neither `::socket` nor the clean-up touches the file system. -/
theorem after_openServer (fs : FileSystem κ) (hfit : Fits name) {a : Alloc}
    (hsocket : r.socket = .ok a) :
    fs.after (callsSince os (openServer plat os name nonblocking n r ec).os) =
      fs.after (serverCalls name n r (a.pick os.opened)) := by
  rw [openServer_of_socket plat os nonblocking n ec hfit hsocket, cleanUp]
  split <;> simp [callsSince, log_serverOs, FileSystem.after, socketCall, FileSystem.effect]

/-- A call that reports an error has left every path with its file exactly when it is not
one that gets its socket, meets an error after that, and touches the name's file. -/
theorem openServer_effects_iff (fs : FileSystem κ) (plat : Platform) (os : Os) (name : Bytes)
    (nonblocking : Bool) (n : Int) (r : ServerReplies) (ec : ErrorCode) :
    ((openServer plat os name nonblocking n r ec).ec.isSet = true →
      ∀ path, (fs.after (callsSince os (openServer plat os name nonblocking n r ec).os)).lookup
        path = fs.lookup path) ↔
      ¬ (Fits name ∧ r.socket.isOk = true ∧
        (ec.isSet = true ∨ r.bind.isOk = false ∨ r.listen.isOk = false) ∧ Touches fs name r) := by
  by_cases hfit : Fits name
  · cases hsocket : r.socket with
    | error e =>
      rw [openServer_of_socket_error plat os nonblocking n ec hfit hsocket]
      simp [callsSince, socketCall, FileSystem.after, FileSystem.effect]
    | ok a =>
      have hcode : (openServer plat os name nonblocking n r ec).ec = serverCode plat r ec := by
        rw [openServer_of_socket plat os nonblocking n ec hfit hsocket, cleanUp_ec]
      rw [hcode, isSet_serverCode, after_openServer fs hfit hsocket, after_serverCalls]
      simp only [hfit, isOk_ok, true_and, not_and]
  · rw [openServer_of_long plat os nonblocking n ec hfit]
    simp [hfit, callsSince, FileSystem.after]

/-- A directory with one file, at the path `!`. -/
def oneFile : FileSystem Bytes where
  resolve := id
  entry path := if path = [33] then some 0 else none
  next := 1
  used path file h := by
    split at h
    · exact Option.some.inj h ▸ Nat.one_pos
    · cases h

/-- The name is that of another server, or of a document: it is deleted, `bind` fails, and
the path leads nowhere. -/
theorem openServer_deletes :
    ∃ c, openServer .linux ⟨∅, 0, []⟩ [33] false 5
        ⟨.ok (.prefer 3), .ok (), .error 98, .ok (), .ok ()⟩ .clear = c ∧
      c.ec.isSet = true ∧ oneFile.lookup [33] = some 0 ∧
      (oneFile.after (callsSince ⟨∅, 0, []⟩ c.os)).lookup [33] = none ∧
      ¬ (c.ec.isSet = true → ∀ path,
        (oneFile.after (callsSince ⟨∅, 0, []⟩ c.os)).lookup path = oneFile.lookup path) := by
  refine ⟨_, rfl, by decide, rfl, by decide, ?_⟩
  intro hkeeps
  exact absurd (hkeeps (by decide) [33]) (by decide)

end Effects

end PfsIo.Local
