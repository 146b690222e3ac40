import PfsIo.Local.Server

/-!
# Names of local sockets

`local::open` and `local::open_server` each have a copy of the code that writes a name into
`sun_path`. Both accept the same names, those that fit with the NUL after them, and build
the same address, from which the name can be read back.

## Main results

* `Local.sunPath?_eq` — what the writes to `sun_path` do, with their bounds checked.
* `Local.cStr_sunPath` — the name is read back.
* `Local.names_encoded` — clients and servers take the same names for the same addresses.
-/

namespace PfsIo

open Library

namespace Call

/-- The address that a call passes to the kernel. -/
def address : Call → Option Bytes
  | .connect _ addr _ | .bind _ addr _ => some addr
  | _ => none

/-- The path that a call removes. -/
def unlinked : Call → Option Bytes
  | .unlink path _ => some path
  | _ => none

end Call

namespace Local

/-- The writes to `sun_path` in turn, with their bounds checked: the name after the
clearing, and a NUL after the name. -/
def sunPath? (name : Bytes) : Option Bytes :=
  (patch? (List.replicate sunPathSize 0) 0 name).bind fun path => patch? path name.length [0]

theorem sunPath?_eq (name : Bytes) :
    sunPath? name = if Fits name then some (sunPath name) else none := by
  unfold sunPath?
  by_cases hfits : Fits name
  · have hname : name.length + 1 ≤ sunPathSize := hfits
    have hlength : (memcpy (List.replicate sunPathSize 0) name).length = sunPathSize := by simp
    rw [patch?_of_le (by simp; omega), patch_eq_memcpy (by simp; omega), Option.bind_some,
      patch?_of_le (by simp; omega), patch_singleton (by omega), if_pos hfits]
    rfl
  · have hname : sunPathSize < name.length + 1 := Nat.not_le.mp hfits
    rw [if_neg hfits, Option.bind_eq_none_iff]
    intro path hpath
    by_cases hcopy : name.length ≤ sunPathSize
    · -- the name fits, and the NUL does not
      rw [patch?_of_le (by simpa using hcopy)] at hpath
      obtain rfl := Option.some.inj hpath
      refine patch?_of_lt ?_
      rw [length_patch (by simpa using hcopy)]
      simpa using hname
    · rw [patch?_of_lt (by simpa using hcopy)] at hpath
      cases hpath

/-- The name, and zeros up to the end. -/
theorem sunPath_of_fits {name : Bytes} (h : Fits name) :
    sunPath name = name ++ 0 :: List.replicate (sunPathSize - name.length - 1) 0 := by
  have hname : name.length + 1 ≤ sunPathSize := h
  have hzeros : List.replicate (sunPathSize - name.length) (0 : UInt8) =
      0 :: List.replicate (sunPathSize - name.length - 1) 0 := by
    rw [← List.replicate_succ, Nat.sub_add_cancel (by omega)]
  rw [sunPath, ← patch_eq_memcpy (by simp; omega), patch_replicate, hzeros,
    List.set_append_right _ _ (Nat.le_refl _), Nat.sub_self, List.set_cons_zero]

/-- The name is read back from an address in which it fits. -/
theorem cStr_sunPath {name : Bytes} (h : Fits name) (hnul : 0 ∉ name) :
    cStr (sunPath name) = name := by
  rw [sunPath_of_fits h, cStr_append hnul, cStr_zero_cons, List.append_nil]

theorem length_sockaddrUn (name : Bytes) : (sockaddrUn name).length = 2 + sunPathSize := by
  simp [sockaddrUn, sunPath, Nat.add_comm 2]

/-- Different names have different addresses. -/
theorem sockaddrUn_inj {name name' : Bytes} (h : Fits name) (hnul : 0 ∉ name)
    (h' : Fits name') (hnul' : 0 ∉ name') : sockaddrUn name = sockaddrUn name' ↔ name = name' := by
  constructor
  · intro haddr
    have hpath : sunPath name = sunPath name' := List.append_cancel_left haddr
    rw [← cStr_sunPath h hnul, hpath, cStr_sunPath h' hnul']
  · rintro rfl
    rfl

/-- The clean-up calls nothing but `::close`. -/
theorem makes_cleanUp {before after : Os} {calls : List Call}
    (h : after.log = before.log ++ calls) (fd : Int) (ec : ErrorCode) (close : Reply) :
    Makes before (cleanUp fd ec after close).os calls := by
  unfold cleanUp
  split
  · exact .close h fd close
  · exact .of_log h

section Calls

variable (plat : Platform) (os : Os) (name : Bytes) (nonblocking : Bool) (ec : ErrorCode)

/-- The calls of `local::open`. -/
def openCalls (name : Bytes) (nonblocking : Bool) (r : OpenReplies) : List Call :=
  match r.socket with
  | .error _ => [socketCall nonblocking (-1)]
  | .ok a =>
    let fd := a.pick os.opened
    [socketCall nonblocking fd, .connect fd (sockaddrUn name) (rcOf r.connect)]

theorem open_makes {name : Bytes} (h : Fits name) (r : OpenReplies) :
    Makes os (open_ plat os name nonblocking r ec).os (openCalls os name nonblocking r) := by
  cases hsocket : r.socket with
  | error e =>
    rw [open_of_socket_error plat os nonblocking ec h hsocket]
    exact .of_log (by simp [openCalls, hsocket])
  | ok a =>
    cases hconnect : r.connect with
    | error e =>
      rw [open_of_connect_error plat os nonblocking ec h hsocket hconnect]
      exact .of_log (by simp [openCalls, hsocket, hconnect, rcOf])
    | ok u =>
      rw [open_of_connected plat os nonblocking ec h hsocket hconnect]
      exact makes_cleanUp (by simp [openCalls, hsocket, hconnect, rcOf]) _ ec r.close

/-- The calls of `local::open_server`. -/
def openServerCalls (name : Bytes) (nonblocking : Bool) (n : Int) (r : ServerReplies) :
    List Call :=
  match r.socket with
  | .error _ => [socketCall nonblocking (-1)]
  | .ok a =>
    let fd := a.pick os.opened
    socketCall nonblocking fd :: serverCalls name n r fd

theorem openServer_makes {name : Bytes} (h : Fits name) (n : Int) (r : ServerReplies) :
    Makes os (openServer plat os name nonblocking n r ec).os
      (openServerCalls os name nonblocking n r) := by
  cases hsocket : r.socket with
  | error e =>
    rw [openServer_of_socket_error plat os nonblocking n ec h hsocket]
    exact .of_log (by simp [openServerCalls, hsocket])
  | ok a =>
    rw [openServer_of_socket plat os nonblocking n ec h hsocket]
    refine makes_cleanUp ?_ _ _ r.close
    rw [log_serverOs]
    simp only [openServerCalls, hsocket]

end Calls

/-- What a function does with a name. One that does not fit is refused before any system
call. For one that fits its address is passed to the kernel, once there is a socket; the
paths removed are as given. -/
structure Takes (os : Os) (name : Bytes) (socket : FdReply) (removed : List Bytes)
    (c : Ret DeviceHandle) : Prop where
  refused : ¬ Fits name → c = ⟨⟨-1⟩, makeErrorCode .invalidArgument, os⟩
  accepted : Fits name → callsSince os c.os ≠ []
  addresses : (callsSince os c.os).filterMap Call.address =
    if Fits name ∧ socket.isOk = true then [sockaddrUn name] else []
  removes : (callsSince os c.os).filterMap Call.unlinked =
    if Fits name ∧ socket.isOk = true then removed else []

section Takes

variable {os : Os} {name : Bytes} {removed : List Bytes}

theorem takes_of_long (h : ¬ Fits name) (socket : FdReply) :
    Takes os name socket removed ⟨⟨-1⟩, makeErrorCode .invalidArgument, os⟩ :=
  ⟨fun _ => rfl, fun hfits => absurd hfits h, by simp [callsSince, h], by simp [callsSince, h]⟩

theorem takes_of_makes (h : Fits name) {c : Ret DeviceHandle} {calls : List Call}
    {socket : FdReply} (hmakes : Makes os c.os calls) (hne : calls ≠ [])
    (haddress : calls.filterMap Call.address = if socket.isOk = true then [sockaddrUn name] else [])
    (hunlinked : calls.filterMap Call.unlinked = if socket.isOk = true then removed else []) :
    Takes os name socket removed c := by
  refine ⟨absurd h, fun _ hnil => ?_, ?_, ?_⟩
  · obtain ⟨closed, hcalls, -⟩ := hmakes
    exact hne (List.append_eq_nil_iff.mp (hcalls.symm.trans hnil)).1
  · rw [hmakes.filterMap Call.address fun _ _ _ => rfl, haddress]
    simp only [h, true_and]
  · rw [hmakes.filterMap Call.unlinked fun _ _ _ => rfl, hunlinked]
    simp only [h, true_and]

end Takes

/-- A client removes nothing. -/
theorem takes_open (plat : Platform) (os : Os) (name : Bytes) (nonblocking : Bool)
    (r : OpenReplies) (ec : ErrorCode) :
    Takes os name r.socket [] (open_ plat os name nonblocking r ec) := by
  by_cases hfits : Fits name
  · have hmakes := open_makes plat os nonblocking ec hfits r
    obtain ⟨socket, connect, close⟩ := r
    cases socket with
    | error e => exact takes_of_makes hfits hmakes (List.cons_ne_nil _ _) rfl rfl
    | ok a => exact takes_of_makes hfits hmakes (List.cons_ne_nil _ _) rfl rfl
  · rw [open_of_long plat os nonblocking ec hfits]
    exact takes_of_long hfits r.socket

/-- A server removes the path that its address leads to. -/
theorem takes_openServer (plat : Platform) (os : Os) (name : Bytes) (nonblocking : Bool) (n : Int)
    (r : ServerReplies) (ec : ErrorCode) :
    Takes os name r.socket [cStr ((sockaddrUn name).drop 2)]
      (openServer plat os name nonblocking n r ec) := by
  by_cases hfits : Fits name
  · have hmakes := openServer_makes plat os nonblocking ec hfits n r
    obtain ⟨socket, unlink, bind, listen, close⟩ := r
    cases socket with
    | error e => exact takes_of_makes hfits hmakes (List.cons_ne_nil _ _) rfl rfl
    | ok a =>
      refine takes_of_makes hfits hmakes (List.cons_ne_nil _ _) ?_ ?_
      · cases bind <;> rfl
      · cases bind <;> rfl
  · rw [openServer_of_long plat os nonblocking n ec hfits]
    exact takes_of_long hfits r.socket

/-- `local::open` and `local::open_server` take the same names, those whose bytes and a NUL
can be written to `sun_path`, and pass the same address of each to the kernel: the family and
`sun_path`, as the writes have left it. The name can be read back from the address and is the
path that the server removes, and no two names have one address. -/
theorem names_encoded (name : Bytes) :
    (∀ plat os nonblocking r ec,
      Takes os name r.socket [] (open_ plat os name nonblocking r ec)) ∧
    (∀ plat os nonblocking n r ec, Takes os name r.socket [cStr ((sockaddrUn name).drop 2)]
      (openServer plat os name nonblocking n r ec)) ∧
    (sockaddrUn name).length = 2 + sunPathSize ∧ (sockaddrUn name).take 2 = [1, 0] ∧
    (sockaddrUn name).drop 2 = sunPath name ∧
    sunPath? name = (if Fits name then some ((sockaddrUn name).drop 2) else none) ∧
    (Fits name → 0 ∉ name → cStr ((sockaddrUn name).drop 2) = name ∧
      ∀ name', Fits name' → 0 ∉ name' → (sockaddrUn name = sockaddrUn name' ↔ name = name')) :=
  ⟨fun plat os => takes_open plat os name, fun plat os => takes_openServer plat os name,
    length_sockaddrUn name, rfl, rfl, sunPath?_eq name, fun hfits hnul =>
      ⟨cStr_sunPath hfits hnul, fun _ hfits' hnul' => sockaddrUn_inj hfits hnul hfits' hnul'⟩⟩

theorem names_encoded_short :
    cStr ((sockaddrUn [47, 115]).drop 2) = [47, 115] ∧
      sockaddrUn [47, 115] ≠ sockaddrUn [47, 116] := by
  obtain ⟨-, -, -, -, -, -, hread⟩ := names_encoded [47, 115]
  obtain ⟨hname, haddr⟩ := hread (by decide) (by decide)
  refine ⟨hname, fun h => ?_⟩
  have hsame := (haddr [47, 116] (by decide) (by decide)).mp h
  exact absurd hsame (by decide)

end Local

end PfsIo
