import PfsIo.Local.Server

/-!
# The ends of the server functions

What `tcp::open_server` and `udp::open_server` do with a descriptor, in one form for both:
`setsockopt` is tested without an `else`, so its failure ends the function in silence, and
the steps after it are reported and cleaned up.

## Main results

* `Tcp.listenAt_end`, `Udp.bindTo_end` — how the two functions end.
* `ServerEnd.kept`, `ServerEnd.isSet_of_undone` — which ends are reported.
-/

namespace PfsIo

/-- Whether a call closes the descriptor. -/
def Call.closes (fd : Int) : Call → Bool
  | .close fd' _ _ => fd' == fd
  | _ => false

@[simp] theorem Call.closes_close (fd fd' : Int) (wasOpen : Bool) (rc : Int) :
    Call.closes fd (.close fd' wasOpen rc) = (fd' == fd) := rfl

@[simp] theorem Call.closes_socket (fd : Int) (family socktype protocol : Nat) (rc : Int) :
    Call.closes fd (.socket family socktype protocol rc) = false := rfl

/-- How a server function goes on with a descriptor: `setsockopt` fails, and that is the
end; a later step fails, and the descriptor is closed; or all steps succeed. -/
inductive ServerEnd (option done : Prop) (steps : List Call) (c : Ret (Int × Bytes))
    (d : Ret DeviceHandle) : Prop where
  | unset : ¬ option → d.value = ⟨c.value.1⟩ → d.ec = c.ec →
      d.os.log = c.os.log ++ [.setReuseAddr c.value.1 (-1)] → ServerEnd option done steps c d
  | closed (tried : List Call) (wasOpen : Bool) (rc : Int) : option → ¬ done →
      d.value = ⟨-1⟩ → d.ec.isSet = true →
      (∀ call ∈ tried, ∀ fd, call.closes fd = false) →
      (∀ family socktype protocol fd, .socket family socktype protocol fd ∉ tried) →
      d.os.log = c.os.log ++ (tried ++ [.close c.value.1 wasOpen rc]) →
      ServerEnd option done steps c d
  | ready : option → done → d.value = ⟨c.value.1⟩ → d.ec = c.ec → d.os.opened = c.os.opened →
      d.os.log = c.os.log ++ steps → ServerEnd option done steps c d

namespace ServerEnd

variable {option done : Prop} {steps : List Call} {c : Ret (Int × Bytes)} {d : Ret DeviceHandle}

/-- A descriptor on which no step fails that matters is returned with the code as it was. -/
theorem kept (h : ServerEnd option done steps c d) (hdone : option → done) :
    d.value = ⟨c.value.1⟩ ∧ d.ec = c.ec := by
  cases h with
  | unset _ hvalue hec _ => exact ⟨hvalue, hec⟩
  | closed _ _ _ hset hundone _ _ _ _ _ => exact absurd (hdone hset) hundone
  | ready _ _ hvalue hec _ _ => exact ⟨hvalue, hec⟩

theorem isSet_of_undone (h : ServerEnd option done steps c d) (hset : option) (hundone : ¬ done) :
    d.ec.isSet = true := by
  cases h with
  | unset hunset _ _ _ => exact absurd hset hunset
  | closed _ _ _ _ _ _ hec _ _ _ => exact hec
  | ready _ hdone _ _ _ _ => exact absurd hdone hundone

theorem isSet_of_isSet (h : ServerEnd option done steps c d) (hc : c.ec.isSet = true) :
    d.ec.isSet = true := by
  cases h with
  | unset _ _ hec _ => rw [hec, hc]
  | closed _ _ _ _ _ _ hec _ _ _ => exact hec
  | ready _ _ _ hec _ _ => rw [hec, hc]

theorem log_of_unset (h : ServerEnd option done steps c d) (hunset : ¬ option) :
    d.os.log = c.os.log ++ [.setReuseAddr c.value.1 (-1)] := by
  cases h with
  | unset _ _ _ hlog => exact hlog
  | closed _ _ _ hset _ _ _ _ _ _ => exact absurd hset hunset
  | ready hset _ _ _ _ _ => exact absurd hset hunset

end ServerEnd

/-- The steps of a TCP server. -/
def Tcp.serverSteps (n : Int) (addr : Bytes) (fd : Int) : List Call :=
  [.setReuseAddr fd 0, .bind fd addr 0, .listen fd n 0]

/-- The steps of a UDP server. -/
def Udp.serverSteps (addr : Bytes) (fd : Int) : List Call :=
  [.setReuseAddr fd 0, .bind fd addr 0]

section Ends

variable {plat : Platform} {c : Ret (Int × Bytes)}

theorem Tcp.listenAt_end (hfd : 0 ≤ c.value.1) (n : Int) (r : Tcp.ServerReplies) :
    ServerEnd (r.setsockopt.isOk = true) (r.bind.isOk = true ∧ r.listen.isOk = true)
      (Tcp.serverSteps n c.value.2 c.value.1) c (Tcp.listenAt plat c n r) := by
  obtain ⟨setsockopt, bind, listen, close⟩ := r
  cases setsockopt with
  | error e =>
    apply ServerEnd.unset <;> simp [Tcp.listenAt, hfd, handleOf_of_nonneg hfd]
  | ok u =>
    cases bind with
    | error e =>
      refine .closed [.setReuseAddr c.value.1 0, .bind c.value.1 c.value.2 (-1)]
        (decide (c.value.1 ∈ c.os.opened)) (Local.rcOf close) ?_ ?_ ?_ ?_ ?_ ?_ ?_
      all_goals simp [Tcp.listenAt, hfd, handleOf, Call.closes, Local.rc_close]
    | ok v =>
      cases listen with
      | error e =>
        refine .closed [.setReuseAddr c.value.1 0, .bind c.value.1 c.value.2 0,
          .listen c.value.1 n (-1)] (decide (c.value.1 ∈ c.os.opened)) (Local.rcOf close)
          ?_ ?_ ?_ ?_ ?_ ?_ ?_
        all_goals simp [Tcp.listenAt, hfd, handleOf, Call.closes, Local.rc_close]
      | ok w =>
        apply ServerEnd.ready <;>
          simp [Tcp.listenAt, hfd, handleOf_of_nonneg hfd, Tcp.serverSteps]

theorem Udp.bindTo_end (hfd : 0 ≤ c.value.1) (r : Tcp.ServerReplies) :
    ServerEnd (r.setsockopt.isOk = true) (r.bind.isOk = true)
      (Udp.serverSteps c.value.2 c.value.1) c (Udp.bindTo plat c r) := by
  obtain ⟨setsockopt, bind, listen, close⟩ := r
  cases setsockopt with
  | error e =>
    apply ServerEnd.unset <;> simp [Udp.bindTo, hfd, handleOf_of_nonneg hfd]
  | ok u =>
    cases bind with
    | error e =>
      refine .closed [.setReuseAddr c.value.1 0, .bind c.value.1 c.value.2 (-1)]
        (decide (c.value.1 ∈ c.os.opened)) (Local.rcOf close) ?_ ?_ ?_ ?_ ?_ ?_ ?_
      all_goals simp [Udp.bindTo, hfd, handleOf, Call.closes, Local.rc_close]
    | ok v =>
      apply ServerEnd.ready <;>
        simp [Udp.bindTo, hfd, handleOf_of_nonneg hfd, Udp.serverSteps]

theorem Tcp.listenAt_of_neg (h : c.value.1 < 0) (n : Int) (r : Tcp.ServerReplies) :
    Tcp.listenAt plat c n r = ⟨⟨-1⟩, c.ec, c.os⟩ := by
  simp [Tcp.listenAt, Int.not_le.mpr h, handleOf, h]

theorem Udp.bindTo_of_neg (h : c.value.1 < 0) (r : Tcp.ServerReplies) :
    Udp.bindTo plat c r = ⟨⟨-1⟩, c.ec, c.os⟩ := by
  simp [Udp.bindTo, Int.not_le.mpr h, handleOf, h]

end Ends

end PfsIo
