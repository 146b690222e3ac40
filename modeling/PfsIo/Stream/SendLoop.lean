import Mathlib.Algebra.BigOperators.Group.List.Basic
import PfsIo.Model.UnixSocket

/-!
# The send loop

The invariant of the loop of `socket::write` links its two counters with the ranges
handed to the kernel: the first `done` bytes have gone, each once and in order, and the
next range starts there. It holds as long as the length fits the `int` that counts.

## Main results

* `Socket.run_ended` — how the loop ends, for every script of answers on which it does.
* `Socket.run_isSome_iff` — it ends as soon as there was room or a fatal error.
* `Socket.sendsAll_iff` — the size arithmetic of a write that meets no fatal error.
-/

namespace PfsIo.Socket

open Library Library.Transfer

/-- The room that an answer of `send` offers. -/
def room : SendReply → Nat
  | .ok r => r
  | .error _ => 0

/-- The answers that make the loop give up. -/
def isFatal (plat : Platform) : SendReply → Bool
  | .ok _ => false
  | .error e => !plat.wouldBlock e

/-- The answers on which the loop goes round again with nothing sent. -/
def isBlocked {α : Type} (plat : Platform) : Except ℕ+ α → Bool
  | .ok _ => false
  | .error e => plat.wouldBlock e

/-- The first `done` of `n` bytes have gone, and the loop's variables say so. -/
structure Sending (n : Nat) (s : WriteState) (done : Nat) : Prop where
  le : done ≤ n
  total : s.totalWritten = done
  rest : s.n = n - done
  requests : Transfers n 0 s.requests done

variable {plat : Platform} {n done : Nat} {s t : WriteState} {replies rest : List SendReply}

theorem Sending.start (n errno : Nat) : Sending n (.start n errno) 0 :=
  ⟨Nat.zero_le _, rfl, rfl, rfl⟩

theorem Sending.guard (h : Sending n s done) :
    (writeLoop plat).guard s = decide (done < n) := by
  have hle := h.le
  simp only [writeLoop, h.rest, bne]
  grind

/-- The kernel takes what it has room for. -/
theorem Sending.accept (plat : Platform) (h : Sending n s done) (hn : n ≤ intMax) (r : ℕ+) :
    ∃ t, (writeLoop plat).body s (.ok r) = .next t ∧
      Sending n t (done + min (r : Nat) (n - done)) := by
  obtain ⟨hle, htotal, hrest, hreq⟩ := h
  unfold intMax at hn
  have htotal' : toInt (s.totalWritten + (min (r : Nat) s.n : Nat)) =
      (done + min (r : Nat) (n - done) : Nat) := by
    rw [htotal, hrest, ← Int.natCast_add]
    exact toInt_of_le (by unfold intMax; omega)
  have hrest' : toSizeT ((s.n : Int) - (min (r : Nat) s.n : Nat)) =
      n - (done + min (r : Nat) (n - done)) := by
    rw [toSizeT_sub (Nat.min_le_right _ _) (by omega)]
    omega
  have hreq' := hreq.snoc hle (Nat.min_le_right (r : Nat) (n - done))
  refine ⟨_, writeBody_ok plat s _, by omega, htotal', hrest', ?_⟩
  simpa only [htotal, hrest] using hreq'

theorem Sending.wouldBlock (h : Sending n s done) {e : ℕ+} (he : plat.wouldBlock e = true) :
    ∃ t, (writeLoop plat).body s (.error e) = .next t ∧ Sending n t done := by
  refine ⟨_, writeBody_wouldBlock plat s he, h.le, h.total, h.rest, ?_⟩
  have hreq := h.requests.snoc h.le (Nat.zero_le _)
  simpa [h.total, h.rest] using hreq

theorem Sending.fatal (h : Sending n s done) {e : ℕ+} (he : plat.wouldBlock e = false) :
    ∃ t, (writeLoop plat).body s (.error e) = .leave t ∧ t.totalWritten = -1 ∧ t.errno = e ∧
      Transfers n 0 t.requests done := by
  refine ⟨_, writeBody_fatal plat s he, rfl, rfl, ?_⟩
  have hreq := h.requests.snoc h.le (Nat.zero_le _)
  simpa [h.total, h.rest] using hreq

theorem Sending.lt_of_guard (h : Sending n s done) (hg : (writeLoop plat).guard s = true) :
    done < n := by
  simpa [h.guard] using hg

theorem Sending.eq_of_guard (h : Sending n s done) (hg : (writeLoop plat).guard s = false) :
    done = n := by
  have hle := h.le
  have hd : ¬ done < n := by simpa [h.guard] using hg
  omega

/-- How the loop that had sent `done` bytes ended: after the last byte has gone, or at the
first fatal error, when the bytes for which there had been room before are gone. -/
inductive Ended (plat : Platform) (n done : Nat) (t : WriteState) : List SendReply → Prop where
  | sent {used : List SendReply} : Sending n t n → (∀ r ∈ used, isFatal plat r = false) →
      Ended plat n done t used
  | gaveUp (before : List SendReply) (e : ℕ+) : plat.wouldBlock e = false →
      (∀ r ∈ before, isFatal plat r = false) → done + (before.map room).sum < n →
      t.totalWritten = -1 → t.errno = e →
      Transfers n 0 t.requests (done + (before.map room).sum) →
      Ended plat n done t (before ++ [.error e])

theorem Ended.accept {used : List SendReply} {r : ℕ+}
    (h : Ended plat n (done + min (r : Nat) (n - done)) t used) :
    Ended plat n done t (.ok r :: used) := by
  cases h with
  | sent ht hused => exact .sent ht (List.forall_mem_cons.mpr ⟨rfl, hused⟩)
  | gaveUp before e he hbefore hlt hrc herrno hreq =>
    have hmin : min (r : Nat) (n - done) = r := by omega
    have hroom : done + ((.ok r :: before).map room).sum = done + r + (before.map room).sum := by
      simp [room, Nat.add_assoc]
    rw [hmin, ← hroom] at hlt hreq
    exact .gaveUp (.ok r :: before) e he (List.forall_mem_cons.mpr ⟨rfl, hbefore⟩) hlt hrc herrno
      hreq

theorem Ended.wouldBlock {used : List SendReply} {e : ℕ+} (he : plat.wouldBlock e = true)
    (h : Ended plat n done t used) : Ended plat n done t (.error e :: used) := by
  have hfatal : isFatal plat (.error e) = false := by simp [isFatal, he]
  cases h with
  | sent ht hused => exact .sent ht (List.forall_mem_cons.mpr ⟨hfatal, hused⟩)
  | gaveUp before e' he' hbefore hlt hrc herrno hreq =>
    have hroom : ((.error e :: before).map room).sum = (before.map room).sum := by
      simp [room]
    rw [← hroom] at hlt hreq
    exact .gaveUp (.error e :: before) e' he' (List.forall_mem_cons.mpr ⟨hfatal, hbefore⟩) hlt hrc
      herrno hreq

theorem run_ended (h : Sending n s done) (hn : n ≤ intMax)
    (hrun : (writeLoop plat).run s replies = some (t, rest)) :
    ∃ used, replies = used ++ rest ∧ Ended plat n done t used := by
  induction replies generalizing s done with
  | nil =>
    cases hg : (writeLoop plat).guard s with
    | true => simp [Loop.run_nil_of_guard hg] at hrun
    | false =>
      rw [Loop.run_of_not_guard hg] at hrun
      obtain ⟨rfl, rfl⟩ := Prod.mk.inj (Option.some.inj hrun)
      obtain rfl := h.eq_of_guard hg
      exact ⟨[], rfl, .sent h (by simp)⟩
  | cons reply replies ih =>
    cases hg : (writeLoop plat).guard s with
    | false =>
      rw [Loop.run_of_not_guard hg] at hrun
      obtain ⟨rfl, rfl⟩ := Prod.mk.inj (Option.some.inj hrun)
      obtain rfl := h.eq_of_guard hg
      exact ⟨[], rfl, .sent h (by simp)⟩
    | true =>
      cases reply with
      | ok r =>
        obtain ⟨u, hb, hu⟩ := h.accept plat hn r
        rw [Loop.run_cons_next hg hb] at hrun
        obtain ⟨used, rfl, hended⟩ := ih hu hrun
        exact ⟨.ok r :: used, rfl, hended.accept⟩
      | error e =>
        cases he : plat.wouldBlock e with
        | true =>
          obtain ⟨u, hb, hu⟩ := h.wouldBlock he
          rw [Loop.run_cons_next hg hb] at hrun
          obtain ⟨used, rfl, hended⟩ := ih hu hrun
          exact ⟨.error e :: used, rfl, hended.wouldBlock he⟩
        | false =>
          obtain ⟨u, hb, hrc, herrno, hreq⟩ := h.fatal he
          rw [Loop.run_cons_leave hg hb] at hrun
          obtain ⟨rfl, rfl⟩ := Prod.mk.inj (Option.some.inj hrun)
          exact ⟨[.error e], rfl, .gaveUp [] e he (by simp) (h.lt_of_guard hg) hrc herrno hreq⟩

/-- The loop ends exactly when there was room for all bytes, or a fatal error. -/
theorem run_isSome_iff (hn : s.n < 18446744073709551616) :
    ((writeLoop plat).run s replies).isSome ↔
      s.n ≤ (replies.map room).sum ∨ ∃ r ∈ replies, isFatal plat r = true := by
  induction replies generalizing s with
  | nil =>
    cases hg : (writeLoop plat).guard s with
    | true =>
      have hpos : s.n ≠ 0 := by simpa [writeLoop] using hg
      simpa [Loop.run_nil_of_guard hg] using hpos
    | false =>
      have hzero : s.n = 0 := by simpa [writeLoop] using hg
      simp [Loop.run_of_not_guard hg, hzero]
  | cons reply replies ih =>
    cases hg : (writeLoop plat).guard s with
    | false =>
      have hzero : s.n = 0 := by simpa [writeLoop] using hg
      simp [Loop.run_of_not_guard hg, hzero]
    | true =>
      simp only [List.map_cons, List.sum_cons, List.exists_mem_cons_iff]
      cases reply with
      | ok r =>
        have hrest : toSizeT ((s.n : Int) - (min (r : Nat) s.n : Nat)) = s.n - min (r : Nat) s.n :=
          toSizeT_sub (Nat.min_le_right _ _) hn
        have hb : (writeLoop plat).body s (.ok r) = .next _ := writeBody_ok plat s _
        rw [Loop.run_cons_next hg hb, ih (by simp only [hrest]; omega)]
        simp only [hrest, room, isFatal, Bool.false_eq_true, false_or]
        exact or_congr_left (by omega)
      | error e =>
        cases he : plat.wouldBlock e with
        | true =>
          have hb : (writeLoop plat).body s (.error e) = .next _ := writeBody_wouldBlock plat s he
          rw [Loop.run_cons_next hg hb, ih (by exact hn)]
          simp [room, isFatal, he]
        | false =>
          have hb : (writeLoop plat).body s (.error e) = .leave _ := writeBody_fatal plat s he
          rw [Loop.run_cons_leave hg hb]
          simp [isFatal, he]

/-- Without fatal errors it ends exactly when there was room. -/
theorem run_isSome_iff_room (hn : s.n < 18446744073709551616)
    (hok : ∀ r ∈ replies, isFatal plat r = false) :
    ((writeLoop plat).run s replies).isSome ↔ s.n ≤ (replies.map room).sum := by
  rw [run_isSome_iff hn, or_iff_left]
  rintro ⟨r, hr, hfatal⟩
  simp [hok r hr] at hfatal

/-- The total of the loop stays an `int`, whatever the length. -/
theorem write_rc_le {errno : Nat} {ec : ErrorCode} {r : WriteResult}
    (h : write plat n errno ec replies = some (r, rest)) : r.rc ≤ intMax := by
  obtain ⟨⟨t, rest'⟩, hrun, hr⟩ := Option.map_eq_some_iff.mp h
  obtain ⟨rfl, rfl⟩ := Prod.mk.inj hr
  have hpost : t.totalWritten ≤ intMax := by
    refine Loop.run_rule (fun s : WriteState => s.totalWritten ≤ intMax) _ ?_ ?_
      (fun _ h _ => h) ?_ hrun
    · intro s o u hs _ hb
      rcases writeBody_next hb with ⟨k, -, rfl⟩ | ⟨e, -, -, rfl⟩
      · exact toInt_le _
      · exact hs
    · intro s o u _ _ hb
      obtain ⟨e, -, -, rfl⟩ := writeBody_leave hb
      simp [intMax]
    · simp [WriteState.start, intMax]
  exact hpost

/-- The first `m` of an endless sequence of answers. -/
def firstAnswers (answers : Nat → SendReply) (m : Nat) : List SendReply :=
  (List.range m).map answers

/-- The write ends, every range it hands over starts right after the bytes accepted
before and reaches to the end of the message, all bytes go, and it reports just that. -/
def SendsAll (plat : Platform) (n errno : Nat) (ec : ErrorCode) (answers : Nat → SendReply) :
    Prop :=
  ∃ m r rest, write plat n errno ec (firstAnswers answers m) = some (r, rest) ∧
    r.rc = n ∧ r.ec = ec ∧ Transfers n 0 r.requests n

/-- Without fatal errors a write sends all and says so exactly when the length is one
that an `int` can count and the kernel has room for it at last. -/
theorem sendsAll_iff (plat : Platform) (n errno : Nat) (ec : ErrorCode)
    (answers : Nat → SendReply) (hok : ∀ i, isFatal plat (answers i) = false) :
    SendsAll plat n errno ec answers ↔
      n ≤ intMax ∧ ∃ m, n ≤ ((firstAnswers answers m).map room).sum := by
  have hfirst : ∀ m, ∀ r ∈ firstAnswers answers m, isFatal plat r = false := by
    intro m r hr
    obtain ⟨i, -, rfl⟩ := List.mem_map.mp hr
    exact hok i
  have hsize : n ≤ intMax → (WriteState.start n errno).n < 18446744073709551616 := by
    intro hn
    simp only [WriteState.start, intMax] at hn ⊢
    omega
  constructor
  · rintro ⟨m, r, rest, hw, hrc, -, -⟩
    have hn : n ≤ intMax := by
      have := write_rc_le hw
      omega
    obtain ⟨x, hrun, -⟩ := Option.map_eq_some_iff.mp hw
    have hroom := (run_isSome_iff_room (hsize hn) (hfirst m)).mp (by simp [hrun])
    exact ⟨hn, m, hroom⟩
  · rintro ⟨hn, m, hroom⟩
    have hsome := (run_isSome_iff_room (hsize hn) (hfirst m)).mpr hroom
    obtain ⟨⟨t, rest⟩, hrun⟩ := Option.isSome_iff_exists.mp hsome
    obtain ⟨used, hused, hended⟩ := run_ended (.start n errno) hn hrun
    cases hended with
    | sent ht _ =>
      refine ⟨m, writeResult plat ec t, rest, by simp [write, hrun], ht.total, ?_, ht.requests⟩
      simp [writeResult, ht.total]
    | gaveUp before e he =>
      have hmem : (.error e : SendReply) ∈ firstAnswers answers m := by simp [hused]
      have := hfirst m _ hmem
      simp [isFatal, he] at this

/-- A short send, a would-block, and then room for the rest. -/
def shortAnswers : Nat → SendReply
  | 0 => .ok 2
  | 1 => .error 11
  | _ => .ok 9

theorem sendsAll_short : SendsAll .linux 5 0 .clear shortAnswers :=
  (sendsAll_iff .linux 5 0 .clear shortAnswers fun i => by
    match i with
    | 0 | 1 | _ + 2 => rfl).mpr ⟨by decide, 3, by decide⟩

/-- As much as Linux takes in one call, and then a page at a time. -/
def pageAnswers : Nat → SendReply
  | 0 => .ok 2147479552
  | _ => .ok 4096

/-- A message of `2 ^ 31` bytes is sent, but the `int` total wraps to `-2 ^ 31`. -/
theorem not_sendsAll_two_gib :
    2147483648 ≤ ssizeMax ∧ (∀ i, isFatal .linux (pageAnswers i) = false) ∧
      (write .linux 2147483648 0 .clear (firstAnswers pageAnswers 2)).map (·.1.rc) =
        some (-2147483648) ∧
      ¬ SendsAll .linux 2147483648 0 .clear pageAnswers := by
  refine ⟨by decide, ?_, by decide, ?_⟩
  · intro i
    match i with
    | 0 | _ + 1 => rfl
  · rintro ⟨m, r, rest, hw, hrc, -, -⟩
    have hle := write_rc_le hw
    rw [hrc] at hle
    exact absurd hle (by decide)

end PfsIo.Socket
