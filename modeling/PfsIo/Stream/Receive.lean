import PfsIo.Datagram.Drain
import PfsIo.Library.Machine

/-!
# What reads report

`socket::read` and `udp::read`, one after the other, with `errno` left over from call to
call. The test for would-block is `rc < 0 && a || b`, where `b` does not ask for a failure:
with two codes for would-block, a stale `errno` makes a read that has received bytes
return zero.

## Main results

* `Receiver.accounted_read` — one read keeps the law or discards what it has received.
* `Receiver.reads_reported_iff` — the reads of a run, and the bytes they report.
-/

namespace PfsIo

open Library

/-- A read by one of the two functions, with the caller's error code, or some other call,
which leaves `errno` at any value. -/
inductive Reception where
  | read (n : Nat) (reply : RecvReply) (ec : ErrorCode)
  | readFrom (paddr : HostAddress) (n : Nat) (reply : Except ℕ+ (Bytes × Bytes)) (ec : ErrorCode)
  | other (errno : Nat)

/-- A read that has returned. -/
structure ReadEvent where
  /-- The bytes that the kernel has delivered, or its error. -/
  outcome : Except ℕ+ Bytes
  before : ErrorCode
  rc : Int
  ec : ErrorCode

namespace ReadEvent

/-- The count of the bytes delivered and no error; zero and no error when the call would
block; else a negative value and the error. -/
def Lawful (plat : Platform) (r : ReadEvent) : Prop :=
  match r.outcome with
  | .ok bytes => r.rc = bytes.length ∧ r.ec = r.before
  | .error e =>
    if (e : Nat) = plat.eagain ∨ (e : Nat) = plat.ewouldblock then r.rc = 0 ∧ r.ec = r.before
    else r.rc < 0 ∧ r.ec = getLastSystemError plat e ∧ r.ec.isSet = true

/-- The number of bytes taken from the kernel. -/
def taken (r : ReadEvent) : Nat :=
  match r.outcome with
  | .ok bytes => bytes.length
  | .error _ => 0

/-- The result, if it is not negative. -/
def reported (r : ReadEvent) : Nat := r.rc.toNat

end ReadEvent

/-- A program that reads from sockets. -/
structure Receiver where
  errno : Nat
  events : List ReadEvent

namespace Receiver

def start (errno : Nat) : Receiver := ⟨errno, []⟩

/-- The kernel delivers at most `n` bytes. -/
def outcomeOf (n : Nat) (reply : RecvReply) : Except ℕ+ Bytes := reply.map (List.take n)

/-- A read has returned. -/
def record (s : Receiver) (n : Nat) (reply : RecvReply) (ec : ErrorCode) (r : ReadResult) :
    Receiver :=
  ⟨r.errno, s.events ++ [⟨outcomeOf n reply, ec, r.rc, r.ec⟩]⟩

def step (plat : Platform) : Machine Receiver Reception
  | s, .read n reply ec => some (s.record n reply ec (Socket.read plat n reply s.errno ec))
  | s, .readFrom paddr n reply ec =>
    some (s.record n (reply.map Prod.fst) ec (Udp.read plat paddr n reply s.errno ec).1)
  | s, .other errno => some { s with errno := errno }

/-- Bytes are delivered while `errno` is left at a second code for would-block. -/
def Discards (plat : Platform) (s : Receiver) : Reception → Prop
  | .read n (.ok bytes) _ => Udp.StaleErrno plat s.errno ∧ bytes.take n ≠ []
  | .readFrom _ n (.ok (payload, _)) _ => Udp.StaleErrno plat s.errno ∧ payload.take n ≠ []
  | _ => False

variable {plat : Platform} {s t : Receiver} {call : Reception} {calls : List Reception}

/-- The events keep the law, and report all bytes taken, exactly when `ok` holds. -/
structure Accounted (plat : Platform) (events : List ReadEvent) (ok : Prop) : Prop where
  lawful : (∀ r ∈ events, r.Lawful plat) ↔ ok
  le : (events.map ReadEvent.reported).sum ≤ (events.map ReadEvent.taken).sum
  total : (events.map ReadEvent.reported).sum = (events.map ReadEvent.taken).sum ↔ ok

theorem Accounted.nil (plat : Platform) : Accounted plat [] True :=
  ⟨by simp, Nat.le_refl _, by simp⟩

theorem Accounted.append {events more : List ReadEvent} {ok ok' : Prop}
    (h : Accounted plat events ok) (h' : Accounted plat more ok') :
    Accounted plat (events ++ more) (ok ∧ ok') := by
  have hle := h.le
  have hle' := h'.le
  refine ⟨?_, ?_, ?_⟩
  · rw [List.forall_mem_append, h.lawful, h'.lawful]
  · rw [List.map_append, List.map_append, List.sum_append, List.sum_append]
    omega
  · rw [← h.total, ← h'.total, List.map_append, List.map_append, List.sum_append,
      List.sum_append]
    omega

theorem Accounted.single {r : ReadEvent} {ok : Prop} (hlawful : r.Lawful plat ↔ ok)
    (hle : r.reported ≤ r.taken) (htotal : r.reported = r.taken ↔ ok) : Accounted plat [r] ok :=
  ⟨by simpa using hlawful, by simpa using hle, by simpa using htotal⟩

theorem accounted_ok (plat : Platform) (stored : Bytes) (ec : ErrorCode) (stale : Prop)
    [Decidable stale] :
    Accounted plat [⟨.ok stored, ec, if stale then 0 else stored.length, ec⟩]
      (¬ (stale ∧ stored ≠ [])) := by
  by_cases hstale : stale
  · have hlen : (0 : Int) = stored.length ↔ stored = [] := by
      rw [← List.length_eq_zero_iff]
      omega
    have hlen' : 0 = stored.length ↔ stored = [] := by rw [eq_comm, List.length_eq_zero_iff]
    apply Accounted.single <;>
      simp [ReadEvent.Lawful, ReadEvent.reported, ReadEvent.taken, hstale, hlen, hlen']
  · apply Accounted.single <;>
      simp [ReadEvent.Lawful, ReadEvent.reported, ReadEvent.taken, hstale]

theorem accounted_wouldBlock {e : ℕ+} (he : plat.wouldBlock e = true) (ec : ErrorCode) :
    Accounted plat [⟨.error e, ec, 0, ec⟩] True := by
  have hcode := Platform.wouldBlock_iff.mp he
  apply Accounted.single <;>
    simp [ReadEvent.Lawful, ReadEvent.reported, ReadEvent.taken, hcode]

theorem accounted_fatal {e : ℕ+} (he : plat.wouldBlock e = false) (ec : ErrorCode) :
    Accounted plat [⟨.error e, ec, -1, getLastSystemError plat e⟩] True := by
  have hcode : ¬ ((e : Nat) = plat.eagain ∨ (e : Nat) = plat.ewouldblock) := by
    rw [← Platform.wouldBlock_iff, he]
    simp
  apply Accounted.single <;>
    simp [ReadEvent.Lawful, ReadEvent.reported, ReadEvent.taken, hcode]

/-- One read discards what it has received, or keeps the law. -/
theorem accounted_read (plat : Platform) (s : Receiver) (n : Nat) (reply : RecvReply)
    (ec : ErrorCode) :
    let r := Socket.read plat n reply s.errno ec
    Accounted plat [⟨outcomeOf n reply, ec, r.rc, r.ec⟩]
      (¬ Discards plat s (.read n reply ec)) := by
  cases reply with
  | ok bytes =>
    rw [Socket.read_ok]
    exact accounted_ok plat (bytes.take n) ec _
  | error e =>
    rw [Socket.read_error]
    simp only [Discards, not_false_eq_true]
    cases he : plat.wouldBlock e with
    | true => exact accounted_wouldBlock he ec
    | false => exact accounted_fatal he ec

theorem discards_readFrom (s : Receiver) (paddr : HostAddress) (n : Nat)
    (reply : Except ℕ+ (Bytes × Bytes)) (ec : ErrorCode) :
    Discards plat s (.readFrom paddr n reply ec) ↔
      Discards plat s (.read n (reply.map Prod.fst) ec) := by
  cases reply <;> rfl

theorem step_spec (hstep : step plat s call = some t) :
    ∃ more, t.events = s.events ++ more ∧ Accounted plat more (¬ Discards plat s call) := by
  cases call with
  | read n reply ec =>
    obtain rfl := Option.some.inj hstep
    exact ⟨_, rfl, accounted_read plat s n reply ec⟩
  | readFrom paddr n reply ec =>
    obtain rfl := Option.some.inj hstep
    refine ⟨_, rfl, ?_⟩
    rw [discards_readFrom]
    exact accounted_read plat s n (reply.map Prod.fst) ec
  | other errno =>
    obtain rfl := Option.some.inj hstep
    exact ⟨[], by simp, by simpa [Discards] using Accounted.nil plat⟩

/-- No call of the run discards what it receives. -/
def SparesAll (plat : Platform) : Receiver → List Reception → Prop :=
  Machine.Along (step plat) fun s call => ¬ Discards plat s call

theorem run_spec (plat : Platform) (s : Receiver) (calls : List Reception) :
    ∃ t more, Machine.run (step plat) s calls = some t ∧ t.events = s.events ++ more ∧
      Accounted plat more (SparesAll plat s calls) := by
  induction calls generalizing s with
  | nil => exact ⟨s, [], rfl, by simp, Accounted.nil plat⟩
  | cons call calls ih =>
    obtain ⟨u, hu⟩ : ∃ u, step plat s call = some u := by cases call <;> exact ⟨_, rfl⟩
    obtain ⟨new, hnew, haccounted⟩ := step_spec hu
    obtain ⟨t, more, hrun, hmore, haccounted'⟩ := ih u
    refine ⟨t, new ++ more, Machine.run_cons_eq_some.mpr ⟨u, hu, hrun⟩, ?_, ?_⟩
    · rw [hmore, hnew, List.append_assoc]
    · have hspares : SparesAll plat s (call :: calls) ↔
          ¬ Discards plat s call ∧ SparesAll plat u calls := by
        simp [SparesAll, Machine.Along, hu]
      rw [hspares]
      exact haccounted.append haccounted'

/-- In a run of reads and of other calls that set `errno`, each read returns the count of the
bytes delivered to it, zero for would-block, or its error, and the results add up to the
bytes taken from the kernel; the one and the other exactly when no bytes are delivered
while `errno` is left at a second code for would-block. -/
theorem reads_reported_iff (plat : Platform) (errno : Nat) (calls : List Reception) :
    ∃ s, Machine.run (step plat) (start errno) calls = some s ∧
      ((∀ r ∈ s.events, r.Lawful plat) ↔ SparesAll plat (start errno) calls) ∧
      ((s.events.map ReadEvent.reported).sum = (s.events.map ReadEvent.taken).sum ↔
        SparesAll plat (start errno) calls) := by
  obtain ⟨s, events, hrun, hevents, haccounted⟩ := run_spec plat (start errno) calls
  obtain rfl : s.events = events := hevents
  exact ⟨s, hrun, haccounted.lawful, haccounted.total⟩

/-- A platform with two codes: after a read that would have blocked, three bytes are taken
from the kernel and reported as none. -/
theorem not_reads_reported_stale :
    ∃ s, Machine.run (step ⟨11, 35⟩) (start 0)
        [.read 16 (.error 35) .clear, .read 16 (.ok [1, 2, 3]) .clear] = some s ∧
      s.events = [⟨.error 35, .clear, 0, .clear⟩, ⟨.ok [1, 2, 3], .clear, 0, .clear⟩] ∧
      (s.events.map ReadEvent.reported).sum = 0 ∧ (s.events.map ReadEvent.taken).sum = 3 ∧
      ¬ ∀ r ∈ s.events, r.Lawful ⟨11, 35⟩ := by
  refine ⟨_, rfl, rfl, rfl, rfl, fun hall => ?_⟩
  have hlast : ReadEvent.Lawful ⟨11, 35⟩ ⟨.ok [1, 2, 3], .clear, 0, .clear⟩ :=
    hall _ (.tail _ (.head _))
  exact absurd hlast.1 (by decide)

end Receiver

end PfsIo
