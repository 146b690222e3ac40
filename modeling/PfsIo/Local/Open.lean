import PfsIo.Library.Machine
import PfsIo.Model.Objects

/-!
# Opening a local socket

How `local::open` ends, by the answers to its calls. The clean-up after the block looks at
`result.fd`, which is not assigned until the connection stands: a socket that could not be
connected is forgotten.

## Main results

* `Local.open_of_long`, `Local.open_of_socket_error`, `Local.open_of_connect_error`,
  `Local.open_of_connected` — the four ways out.
* `Local.open_clean_iff` — when a failure leaves no descriptor behind, for one call and for
  any number of failed ones.
-/

namespace PfsIo.Local

open Library

section Exits

variable (plat : Platform) (os : Os) {name : Bytes} (nonblocking : Bool) {r : OpenReplies}
  (ec : ErrorCode)

/-- The name and the NUL after it fit. -/
def Fits (name : Bytes) : Prop := name.length + 1 ≤ sunPathSize

instance (name : Bytes) : Decidable (Fits name) := inferInstanceAs (Decidable (_ ≤ _))

/-- The call of `::socket`. -/
def socketCall (nonblocking : Bool) : Int → Call := .socket afLocal (sockType nonblocking) 0

theorem open_of_long (h : ¬ Fits name) :
    open_ plat os name nonblocking r ec = ⟨⟨-1⟩, makeErrorCode .invalidArgument, os⟩ := by
  have hlong : sunPathSize < name.length + 1 := Nat.not_le.mp h
  simp [open_, hlong]

theorem open_of_socket_error (h : Fits name) {e : ℕ+} (hsocket : r.socket = .error e) :
    open_ plat os name nonblocking r ec =
      ⟨⟨-1⟩, getLastSystemError plat e, (os.newFd (socketCall nonblocking) (.error e)).os⟩ := by
  have hfit : ¬ sunPathSize < name.length + 1 := Nat.not_lt.mpr h
  simp [open_, hfit, hsocket, socketCall]

/-- The descriptor of a socket that could not be connected stays open. -/
theorem open_of_connect_error (h : Fits name) {a : Alloc} (hsocket : r.socket = .ok a) {e : ℕ+}
    (hconnect : r.connect = .error e) :
    let s := os.newFd (socketCall nonblocking) (.ok a)
    open_ plat os name nonblocking r ec =
      ⟨⟨-1⟩, getLastSystemError plat e,
        (s.os.check (.connect s.rc (sockaddrUn name)) (.error e)).os⟩ := by
  have hfit : ¬ sunPathSize < name.length + 1 := Nat.not_lt.mpr h
  simp [open_, hfit, hsocket, hconnect, socketCall, Int.not_lt.mpr (a.nonneg _)]

/-- The clean-up, with a descriptor that it sees. -/
def cleanUp (fd : Int) (ec : ErrorCode) (os : Os) (close : Reply) : Ret DeviceHandle :=
  if ec.isSet && decide (fd > 0) then ⟨⟨-1⟩, ec, (os.close fd close).os⟩ else ⟨⟨fd⟩, ec, os⟩

theorem cleanUp_of_clear (fd : Int) (close : Reply) (hec : ec.isSet = false) :
    cleanUp fd ec os close = ⟨⟨fd⟩, ec, os⟩ := by
  simp [cleanUp, hec]

theorem cleanUp_of_isSet {fd : Int} (close : Reply) (hec : ec.isSet = true) (hfd : 0 < fd) :
    cleanUp fd ec os close = ⟨⟨-1⟩, ec, (os.close fd close).os⟩ := by
  simp [cleanUp, hec, hfd]

theorem cleanUp_zero (close : Reply) : cleanUp 0 ec os close = ⟨⟨0⟩, ec, os⟩ := by
  simp [cleanUp]

theorem cleanUp_ec (fd : Int) (close : Reply) : (cleanUp fd ec os close).ec = ec := by
  unfold cleanUp
  split <;> rfl

/-- A connected socket is closed again if the code was set on entry. -/
theorem open_of_connected (h : Fits name) {a : Alloc} (hsocket : r.socket = .ok a)
    (hconnect : r.connect = .ok ()) :
    let s := os.newFd (socketCall nonblocking) (.ok a)
    open_ plat os name nonblocking r ec =
      cleanUp s.rc ec (s.os.check (.connect s.rc (sockaddrUn name)) (.ok ())).os r.close := by
  have hfit : ¬ sunPathSize < name.length + 1 := Nat.not_lt.mpr h
  simp [open_, cleanUp, hfit, hsocket, hconnect, socketCall, Int.not_lt.mpr (a.nonneg _)]

/-- An error is one that was there on entry, or that of a step that has failed. -/
theorem isSet_open : (open_ plat os name nonblocking r ec).ec.isSet = true ↔
    ec.isSet = true ∨ ¬ (Fits name ∧ r.socket.isOk = true ∧ r.connect.isOk = true) := by
  by_cases hfit : Fits name
  · cases hsocket : r.socket with
    | error e =>
      rw [open_of_socket_error plat os nonblocking ec hfit hsocket]
      simp
    | ok a =>
      cases hconnect : r.connect with
      | error e =>
        rw [open_of_connect_error plat os nonblocking ec hfit hsocket hconnect]
        simp
      | ok u =>
        rw [open_of_connected plat os nonblocking ec hfit hsocket hconnect, cleanUp_ec]
        simp [hfit]
  · rw [open_of_long plat os nonblocking ec hfit]
    simp [hfit]

end Exits

/-- Success: no error, and one more open descriptor, which is connected. -/
structure Connected (os : Os) (name : Bytes) (c : Ret DeviceHandle) : Prop where
  ec : c.ec.isSet = false
  nonneg : 0 ≤ c.value.fd
  fresh : c.value.fd ∉ os.opened
  opened : c.os.opened = insert c.value.fd os.opened
  connected : .connect c.value.fd (sockaddrUn name) 0 ∈ callsSince os c.os

/-- Failure: an error, a closed handle, and the same descriptors open as before. -/
structure Refused (os : Os) (c : Ret DeviceHandle) : Prop where
  ec : c.ec.isSet = true
  handle : c.value = ⟨-1⟩
  opened : c.os.opened = os.opened

/-- The socket is made and cannot be connected. -/
def Orphans (name : Bytes) (r : OpenReplies) : Prop :=
  Fits name ∧ r.socket.isOk = true ∧ r.connect.isOk = false

/-- What a call that leaves a socket behind leaves: an error, and one more descriptor. -/
structure Leaked (os : Os) (c : Ret DeviceHandle) : Prop where
  ec : c.ec.isSet = true
  opened : ∃ fd, fd ∉ os.opened ∧ c.os.opened = insert fd os.opened

/-- A call with a clear error code succeeds or fails, or leaves a socket behind. -/
theorem open_cases (plat : Platform) (os : Os) (name : Bytes) (nonblocking : Bool)
    (r : OpenReplies) {ec : ErrorCode} (hec : ec.isSet = false) :
    let c := open_ plat os name nonblocking r ec
    (¬ Orphans name r ∧ (Connected os name c ∨ Refused os c)) ∨ (Orphans name r ∧ Leaked os c) := by
  by_cases hfit : Fits name
  · cases hsocket : r.socket with
    | error e =>
      refine .inl ⟨by simp [Orphans, hsocket], .inr ?_⟩
      rw [open_of_socket_error plat os nonblocking ec hfit hsocket]
      exact ⟨isSet_getLastSystemError_pnat plat e, rfl, rfl⟩
    | ok a =>
      cases hconnect : r.connect with
      | error e =>
        refine .inr ⟨⟨hfit, by simp [hsocket], by simp [hconnect]⟩, ?_⟩
        rw [open_of_connect_error plat os nonblocking ec hfit hsocket hconnect]
        exact ⟨isSet_getLastSystemError_pnat plat e, a.pick os.opened, a.fresh _, rfl⟩
      | ok u =>
        refine .inl ⟨by simp [Orphans, hconnect], .inl ?_⟩
        rw [open_of_connected plat os nonblocking ec hfit hsocket hconnect,
          cleanUp_of_clear _ _ _ _ hec]
        refine ⟨hec, a.nonneg _, a.fresh _, rfl, ?_⟩
        simp [callsSince]
  · refine .inl ⟨fun h => hfit h.1, .inr ?_⟩
    rw [open_of_long plat os nonblocking ec hfit]
    exact ⟨rfl, rfl, rfl⟩

/-- The arguments of `make_local_socket`, and the answers to its calls. -/
structure MakeCall where
  name : Bytes
  nonblocking : Bool
  replies : OpenReplies

/-- A call of `make_local_socket` with a clear error code, if it fails. -/
def failedMake (plat : Platform) : Machine Os MakeCall
  | os, m =>
    let c := makeLocalSocket plat os m.name m.nonblocking m.replies .clear
    if c.value.isNone then some c.os else none

variable {plat : Platform} {os os' : Os} {m : MakeCall} {calls : List MakeCall}

/-- A failed call either leaves the descriptors alone or adds one. -/
theorem failedMake_opened (h : failedMake plat os m = some os') :
    (¬ Orphans m.name m.replies ∧ os'.opened = os.opened) ∨
      (Orphans m.name m.replies ∧ os.opened ⊂ os'.opened) := by
  simp only [failedMake, makeLocalSocket] at h
  rcases open_cases plat os m.name m.nonblocking m.replies ErrorCode.isSet_clear with
    ⟨hno, hconnected | hrefused⟩ | ⟨horphans, hleaked⟩
  · simp [hconnected.ec] at h
  · simp only [hrefused.ec, if_true, Option.isNone_none, Option.some.injEq] at h
    exact .inl ⟨hno, h ▸ hrefused.opened⟩
  · simp only [hleaked.ec, if_true, Option.isNone_none, Option.some.injEq] at h
    obtain ⟨fd, hfresh, hopened⟩ := hleaked.opened
    refine .inr ⟨horphans, ?_⟩
    rw [← h, hopened]
    exact Finset.ssubset_insert hfresh

theorem run_failedMake_subset (h : Machine.run (failedMake plat) os calls = some os') :
    os.opened ⊆ os'.opened := by
  have keeps : ∀ s m t, os.opened ⊆ s.opened → failedMake plat s m = some t →
      os.opened ⊆ t.opened := by
    intro s m t hs hstep
    rcases failedMake_opened hstep with ⟨-, hsame⟩ | ⟨-, hmore⟩
    · exact hsame ▸ hs
    · exact hs.trans hmore.subset
  exact Machine.run_keeps keeps (Finset.Subset.refl _) h

/-- After failed calls the descriptors are those of before exactly when none of the calls has
left a socket behind. -/
theorem run_failedMake_iff (h : Machine.run (failedMake plat) os calls = some os') :
    os'.opened = os.opened ↔ ∀ m ∈ calls, ¬ Orphans m.name m.replies := by
  induction calls generalizing os with
  | nil =>
    obtain rfl := Option.some.inj h
    simp
  | cons m calls ih =>
    obtain ⟨u, hstep, hrest⟩ := Machine.run_cons_eq_some.mp h
    rw [List.forall_mem_cons, ← ih hrest]
    rcases failedMake_opened hstep with ⟨hno, hsame⟩ | ⟨horphans, hmore⟩
    · simp [hno, hsame]
    · refine iff_of_false ?_ fun hall => hall.1 horphans
      intro heq
      have hsubset := hmore.trans_subset (run_failedMake_subset hrest)
      exact hsubset.ne heq.symm

/-- With a clear error code, the call succeeds or fails without a trace exactly when it does
not make a socket that cannot be connected; and any number of failed calls leave the
descriptors as they are exactly when none of them does. -/
theorem open_clean_iff (plat : Platform) (os : Os) :
    (∀ name nonblocking r ec, ec.isSet = false →
      (Connected os name (open_ plat os name nonblocking r ec) ∨
          Refused os (open_ plat os name nonblocking r ec) ↔ ¬ Orphans name r)) ∧
    ∀ calls os', Machine.run (failedMake plat) os calls = some os' →
      (os'.opened = os.opened ↔ ∀ m ∈ calls, ¬ Orphans m.name m.replies) := by
  refine ⟨?_, fun calls os' h => run_failedMake_iff h⟩
  intro name nonblocking r ec hec
  rcases open_cases plat os name nonblocking r hec with ⟨hno, hends⟩ | ⟨horphans, hleaked⟩
  · exact iff_of_true hends hno
  · refine iff_of_false ?_ (not_not_intro horphans)
    obtain ⟨fd, hfresh, hopened⟩ := hleaked.opened
    rintro (h | h)
    · exact absurd hleaked.ec (by simp [h.ec])
    · rw [h.opened] at hopened
      exact hfresh (hopened ▸ Finset.mem_insert_self fd os.opened)

/-- A connection, and a call on a process without free descriptors. -/
theorem open_clean_connected :
    (Connected ⟨∅, 0, []⟩ [33] (open_ .linux ⟨∅, 0, []⟩ [33] false ⟨.ok (.prefer 3), .ok (), .ok ()⟩
        .clear) ∨
      Refused ⟨∅, 0, []⟩ (open_ .linux ⟨∅, 0, []⟩ [33] false ⟨.ok (.prefer 3), .ok (), .ok ()⟩
        .clear)) ∧
    ∃ os', Machine.run (failedMake .linux) ⟨{0}, 0, []⟩
        [⟨[33], false, ⟨.error 24, .ok (), .ok ()⟩⟩] = some os' ∧ os'.opened = {0} := by
  refine ⟨?_, _, rfl, ?_⟩
  · apply ((open_clean_iff .linux ⟨∅, 0, []⟩).1 [33] false ⟨.ok (.prefer 3), .ok (), .ok ()⟩ .clear
      rfl).mpr
    simp [Orphans]
  · apply ((open_clean_iff .linux ⟨{0}, 0, []⟩).2 [⟨[33], false, ⟨.error 24, .ok (), .ok ()⟩⟩] _
      rfl).mpr
    simp [Orphans]

/-- A name that nobody serves: an error, and one more descriptor that is open. -/
theorem not_open_clean_absent :
    ∃ c, open_ .linux ⟨∅, 0, []⟩ [33] false ⟨.ok (.prefer 3), .error 2, .ok ()⟩ .clear = c ∧
      c.ec = makeErrorCode .fileNotFound ∧ c.value = ⟨-1⟩ ∧ c.os.opened = {3} ∧
      ¬ (Connected ⟨∅, 0, []⟩ [33] c ∨ Refused ⟨∅, 0, []⟩ c) := by
  refine ⟨_, rfl, rfl, rfl, rfl, ?_⟩
  rintro (h | h)
  · exact absurd h.ec (by decide)
  · exact absurd h.opened (by decide)

end PfsIo.Local
