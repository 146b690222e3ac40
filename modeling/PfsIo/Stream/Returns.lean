import Mathlib.Algebra.Order.BigOperators.Group.List
import PfsIo.Datagram.Write

/-!
# Whether a write returns

On endless sequences of answers. Would-block is answered by another call at once, on
sockets opened as non-blocking too, so that a write goes on for as long as the peer does
not read.

## Main results

* `Socket.returns_iff` — a write on a stream socket returns unless it stalls.
* `Udp.returns_iff` — a write of a datagram returns unless every call blocks.
* `write_returns_iff` — both of them.
-/

namespace PfsIo

open Library

namespace Socket

variable {plat : Platform} {n errno : Nat} {ec : ErrorCode} {answers : Nat → SendReply}
  {k m : Nat}

/-- A write comes to an end on an endless sequence of answers. -/
def Returns (plat : Platform) (n errno : Nat) (ec : ErrorCode) (answers : Nat → SendReply) :
    Prop :=
  ∃ m, (write plat n errno ec (firstAnswers answers m)).isSome

/-- From some call on the kernel reports nothing but would-block; before, it has had less
room than there are bytes, and has reported no fatal error. -/
def Stalls (plat : Platform) (n : Nat) (answers : Nat → SendReply) : Prop :=
  ∃ k, (∀ i, k ≤ i → isBlocked plat (answers i) = true) ∧
    (∀ i < k, isFatal plat (answers i) = false) ∧ ((firstAnswers answers k).map room).sum < n

theorem returns_iff_ends :
    Returns plat n errno ec answers ↔ (writeLoop plat).Ends (.start n errno) answers := by
  simp [Returns, Loop.Ends, write, firstAnswers]

theorem isFatal_of_isBlocked {r : SendReply} (h : isBlocked plat r = true) :
    isFatal plat r = false := by
  cases r with
  | ok a => rfl
  | error e => simpa [isBlocked, isFatal] using h

theorem room_of_isBlocked {r : SendReply} (h : isBlocked plat r = true) : room r = 0 := by
  cases r with
  | ok a => simp [isBlocked] at h
  | error e => rfl

/-- Would-block gives no room. -/
theorem room_sum_le (hblocked : ∀ i, k ≤ i → isBlocked plat (answers i) = true) (m : Nat) :
    ((firstAnswers answers m).map room).sum ≤ ((firstAnswers answers k).map room).sum := by
  rcases Nat.le_total m k with hmk | hkm
  · apply List.Sublist.sum_le_sum
    · exact ((List.range_sublist.mpr hmk).map answers).map room
    · simp
  · induction m, hkm using Nat.le_induction with
    | base => exact Nat.le_refl _
    | succ m hkm ih =>
      simpa [firstAnswers, List.range_succ, room_of_isBlocked (hblocked m hkm)] using ih

/-- An iteration goes on with no more left to send, and with less after a success. -/
theorem rest_of_next {s t : WriteState} {reply : SendReply} (hn : s.n < 18446744073709551616)
    (hg : (writeLoop plat).guard s = true) (hb : (writeLoop plat).body s reply = .next t) :
    t.n < 18446744073709551616 ∧ t.n ≤ s.n ∧ (isBlocked plat reply = false → t.n < s.n) := by
  have hpos : s.n ≠ 0 := by simpa [writeLoop] using hg
  cases reply with
  | ok r =>
    have hrest : toSizeT ((s.n : Int) - (min (r : Nat) s.n : Nat)) = s.n - min (r : Nat) s.n :=
      toSizeT_sub (Nat.min_le_right _ _) hn
    have hr := r.pos
    obtain rfl := Flow.next.inj ((writeBody_ok plat s _).symm.trans hb)
    simp only [hrest]
    omega
  | error e =>
    cases he : plat.wouldBlock e with
    | true =>
      obtain rfl := Flow.next.inj ((writeBody_wouldBlock plat s he).symm.trans hb)
      simp [isBlocked, he, hn]
    | false => exact absurd ((writeBody_fatal plat s he).symm.trans hb) (by simp)

theorem not_returns_of_stalls (hn : n < 18446744073709551616) (h : Stalls plat n answers) :
    ¬ Returns plat n errno ec answers := by
  obtain ⟨k, hblocked, hfatal, hroom⟩ := h
  rw [returns_iff_ends]
  rintro ⟨m, hm⟩
  rcases (run_isSome_iff hn).mp hm with hsum | ⟨r, hr, hrfatal⟩
  · have hle := room_sum_le hblocked m
    have hsum' : n ≤ ((firstAnswers answers m).map room).sum := hsum
    omega
  · obtain ⟨i, -, rfl⟩ := Loop.mem_firstOutcomes.mp hr
    have hnot : isFatal plat (answers i) = false := by
      rcases Nat.lt_or_ge i k with hi | hi
      · exact hfatal i hi
      · exact isFatal_of_isBlocked (hblocked i hi)
    simp [hnot] at hrfatal

theorem returns_of_not_stalls (hn : n < 18446744073709551616) (h : ¬ Stalls plat n answers) :
    Returns plat n errno ec answers := by
  rw [returns_iff_ends]
  by_cases hfair : ∀ i, ∃ j, isBlocked plat (answers (i + j)) = false
  · refine Loop.ends_of_fair WriteState.n (fun r => isBlocked plat r = false)
      (fun s => s.n < 18446744073709551616) ?_ hfair hn
    intro s reply t hs hg hb
    exact rest_of_next hs hg hb
  · simp only [not_forall, not_exists, Bool.not_eq_false] at hfair
    obtain ⟨k, hk⟩ := hfair
    refine ⟨k, (run_isSome_iff hn).mpr ?_⟩
    by_contra hnone
    obtain ⟨hroom, hfatal⟩ := not_or.mp hnone
    refine h ⟨k, ?_, ?_, Nat.lt_of_not_le hroom⟩
    · intro i hi
      obtain ⟨j, rfl⟩ := Nat.exists_eq_add_of_le hi
      exact hk j
    · intro i hi
      have hmem : answers i ∈ (List.range k).map answers :=
        Loop.mem_firstOutcomes.mpr ⟨i, hi, rfl⟩
      exact eq_false_of_ne_true fun hf => hfatal ⟨answers i, hmem, hf⟩

/-- A write on a stream socket returns unless it stalls. -/
theorem returns_iff (hn : n < 18446744073709551616) :
    Returns plat n errno ec answers ↔ ¬ Stalls plat n answers :=
  ⟨fun hr hs => not_returns_of_stalls hn hs hr, returns_of_not_stalls hn⟩

end Socket

namespace Udp

open Socket

variable {plat : Platform} {h : DeviceHandle} {paddr : HostAddress} {n errno : Nat}
  {ec : ErrorCode} {answers : Nat → Reply}

/-- A write of a datagram comes to an end on an endless sequence of answers. -/
def Returns (plat : Platform) (h : DeviceHandle) (paddr : HostAddress) (n errno : Nat)
    (ec : ErrorCode) (answers : Nat → Reply) : Prop :=
  ∃ m, (write plat h paddr n errno ec ((List.range m).map answers)).isSome

/-- The kernel reports nothing but would-block. -/
def Stalls (plat : Platform) (n : Nat) (answers : Nat → Reply) : Prop :=
  n ≠ 0 ∧ ∀ i, isBlocked plat (answers i) = true

/-- A write of a datagram returns unless every call blocks. -/
theorem returns_iff :
    Returns plat h paddr n errno ec answers ↔ ¬ Stalls plat n answers := by
  simp only [Returns, write_isSome_iff, Stalls]
  constructor
  · rintro ⟨m, rfl | ⟨r, hr, hreply⟩⟩ ⟨hn, hblocked⟩
    · exact hn rfl
    · obtain ⟨i, -, rfl⟩ := Loop.mem_firstOutcomes.mp hr
      simp [hblocked i] at hreply
  · intro hnot
    by_cases hn : n = 0
    · exact ⟨0, .inl hn⟩
    · simp only [ne_eq, hn, not_false_eq_true, true_and, not_forall, Bool.not_eq_true] at hnot
      obtain ⟨i, hi⟩ := hnot
      exact ⟨i + 1, .inr ⟨answers i, Loop.mem_firstOutcomes.mpr ⟨i, by omega, rfl⟩, hi⟩⟩

end Udp

/-- For every length that a `size_t` can hold and every endless sequence of answers, a
write returns exactly when it does not stall. -/
theorem write_returns_iff (plat : Platform) (n errno : Nat) (ec : ErrorCode)
    (hn : n < 18446744073709551616) :
    (∀ answers, Socket.Returns plat n errno ec answers ↔ ¬ Socket.Stalls plat n answers) ∧
    ∀ h paddr answers,
      Udp.Returns plat h paddr n errno ec answers ↔ ¬ Udp.Stalls plat n answers :=
  ⟨fun _ => Socket.returns_iff hn, fun _ _ _ => Udp.returns_iff⟩

/-- Two bytes on a socket whose kernel has room for one and blocks once before the rest. -/
theorem write_returns_short :
    Socket.Returns .linux 2 0 .clear Socket.shortAnswers ∧
      Udp.Returns .linux ⟨3⟩ .zero 2 0 .clear fun _ => .ok () := by
  obtain ⟨hstream, hdatagram⟩ := write_returns_iff .linux 2 0 .clear (by decide)
  refine ⟨(hstream _).mpr ?_, (hdatagram _ _ _).mpr ?_⟩
  · rintro ⟨k, hblocked, -, -⟩
    exact absurd (hblocked (k + 2) (by omega)) (by simp [Socket.shortAnswers, Socket.isBlocked])
  · rintro ⟨-, hblocked⟩
    exact absurd (hblocked 0) (by simp [Socket.isBlocked])

/-- One byte for a peer that has stopped reading: no number of calls ends the write. -/
theorem not_returns_blocked :
    ¬ Socket.Returns .linux 1 0 .clear (fun _ => .error 11) ∧
      ¬ Udp.Returns .linux ⟨3⟩ .zero 1 0 .clear fun _ => .error 11 := by
  refine ⟨Socket.not_returns_of_stalls (by decide) ⟨0, ?_, ?_, by decide⟩, ?_⟩
  · intro i _
    rfl
  · intro i hi
    omega
  · rw [Udp.returns_iff]
    exact not_not_intro ⟨by decide, fun _ => rfl⟩

end PfsIo
