import PfsIo.Model.Buffer
import PfsIo.Stream.SendLoop

/-!
# Write accounting

What the return value of a write says about the bytes accepted, for each kind of device
that carries a byte stream: memory buffers, files, and local and TCP sockets.

## Main results

* `StreamWrite.accounts_iff` — the return value accounts for the bytes accepted unless a
  fatal error follows a send that was accepted.
-/

namespace PfsIo

open Library Library.Transfer Socket

/-- A write on a device, with the outcomes of the calls it makes: the state of a buffer
and its container, the answer of `::write`, or the answers of all calls of `send`. -/
inductive StreamWrite where
  | buffer (b : Buffer) (c : Container)
  | file (reply : Except ℕ+ Nat)
  | localSocket (replies : List SendReply)
  | tcpSocket (replies : List SendReply)

namespace StreamWrite

/-- The return value, and the bytes the stream has grown by. -/
def exec (plat : Platform) (errno : Nat) (ec : ErrorCode) (message : Bytes) :
    StreamWrite → Option (Int × Bytes)
  | .buffer b c =>
    match b.write c message ec with
    | .returns w => some (w.rc, w.container.bytes.drop c.bytes.length)
    | _ => none
  | .file reply =>
    let r := File.write plat message.length reply errno ec
    some (r.rc, r.accepted message)
  | .localSocket replies | .tcpSocket replies =>
    match Socket.write plat message.length errno ec replies with
    | some (r, []) => some (r.rc, r.accepted message)
    | _ => none

/-- The answers end with a fatal error, and one before it accepted bytes. -/
def AbortsAfterSend (plat : Platform) : StreamWrite → Prop
  | .localSocket replies | .tcpSocket replies =>
    ∃ (before : List SendReply) (e : ℕ+), replies = before ++ [.error e] ∧
      plat.wouldBlock e = false ∧ ∃ r, .ok r ∈ before
  | _ => False

end StreamWrite

/-- The return value accounts for the bytes accepted: a retry of the rest puts no byte
into the stream twice. -/
structure Accounts (message : Bytes) (rc : Int) (accepted : Bytes) : Prop where
  counted : 0 ≤ rc → rc ≤ message.length ∧ accepted = message.take rc.toNat
  rejected : rc < 0 → accepted = []
  retry : ∀ more, more <+: message.drop rc.toNat → accepted ++ more <+: message

theorem Accounts.of_counted {message : Bytes} {k : Nat} (h : k ≤ message.length) :
    Accounts message k (message.take k) := by
  refine ⟨fun _ => ⟨by omega, rfl⟩, fun hneg => by omega, fun more hmore => ?_⟩
  have := (List.prefix_append_right_inj (message.take k)).mpr hmore
  simpa [List.take_append_drop] using this

theorem Accounts.of_rejected (message : Bytes) : Accounts message (-1) [] :=
  ⟨fun hpos => by omega, fun _ => rfl, fun more hmore => by simpa using hmore⟩

theorem Socket.sum_room_eq_zero {before : List SendReply} :
    (before.map room).sum = 0 ↔ ∀ r, .ok r ∉ before := by
  simp only [List.sum_eq_zero_iff_forall_eq_nat, List.mem_map, forall_exists_index, and_imp,
    forall_apply_eq_imp_iff₂]
  constructor
  · intro h r hr
    exact absurd (h _ hr) r.ne_zero
  · intro h reply hreply
    cases reply with
    | ok r => exact absurd hreply (h r)
    | error e => rfl

namespace StreamWrite

variable {plat : Platform} {errno : Nat} {ec : ErrorCode} {message : Bytes}

theorem accounts_buffer {b : Buffer} {c : Container} {w : Buffer.Write}
    (h : b.write c message ec = .returns w) :
    Accounts message w.rc (w.container.bytes.drop c.bytes.length) := by
  rcases Buffer.write_returns h with ⟨hrc, hc⟩ | ⟨-, hrc, hc⟩
  · simpa [hrc, hc] using Accounts.of_rejected message
  · simpa [hrc, hc] using Accounts.of_counted (Nat.le_refl message.length)

theorem accounts_file (reply : Except ℕ+ Nat) :
    let r := File.write plat message.length reply errno ec
    Accounts message r.rc (r.accepted message) := by
  cases reply with
  | ok k =>
    have h := Accounts.of_counted (Nat.min_le_right k message.length)
    simpa [File.write, WriteResult.accepted] using h
  | error e => simpa [File.write, WriteResult.accepted] using Accounts.of_rejected message

theorem accounts_socket_iff (hlen : message.length ≤ intMax) {replies : List SendReply}
    {r : WriteResult} (h : Socket.write plat message.length errno ec replies = some (r, [])) :
    Accounts message r.rc (r.accepted message) ↔
      ¬ ∃ (before : List SendReply) (e : ℕ+), replies = before ++ [.error e] ∧
        plat.wouldBlock e = false ∧ ∃ k, .ok k ∈ before := by
  obtain ⟨⟨t, rest⟩, hrun, hr⟩ := Option.map_eq_some_iff.mp h
  obtain ⟨rfl, rfl⟩ := Prod.mk.inj hr
  obtain ⟨used, hused, hended⟩ := run_ended (.start message.length errno) hlen hrun
  rw [List.append_nil] at hused
  subst hused
  cases hended with
  | sent ht hok =>
    have hacc : gather message t.requests = message := by
      rw [ht.requests.gather_prefix, List.take_length]
    refine iff_of_true ?_ ?_
    · have hfull := Accounts.of_counted (Nat.le_refl message.length)
      simpa [writeResult, WriteResult.accepted, ht.total, hacc] using hfull
    · rintro ⟨before, e, rfl, he, -⟩
      have := hok (.error e) (by simp)
      simp [isFatal, he] at this
  | gaveUp before e he hbefore hlt hrc herrno hreq =>
    simp only [Nat.zero_add] at hlt hreq
    have hacc : gather message t.requests = message.take (before.map room).sum :=
      hreq.gather_prefix message
    have hnone : Accounts message t.totalWritten (gather message t.requests) ↔
        (before.map room).sum = 0 := by
      rw [hrc, hacc]
      constructor
      · intro ha
        have hnil := ha.rejected (by omega)
        have hlen0 := congrArg List.length hnil
        simp only [List.length_take, List.length_nil] at hlen0
        omega
      · intro hz
        simpa [hz] using Accounts.of_rejected message
    refine hnone.trans (sum_room_eq_zero.trans ?_)
    constructor
    · rintro hno ⟨before', e', heq, -, k, hk⟩
      obtain ⟨rfl, -⟩ := List.append_inj' heq rfl
      exact hno k hk
    · intro hno k hk
      exact hno ⟨before, e, rfl, he, k, hk⟩

/-- A write that returns accounts for its bytes unless it gave up after a send. -/
theorem accounts_iff (plat : Platform) (errno : Nat) (ec : ErrorCode) (message : Bytes)
    (hlen : message.length ≤ intMax) (call : StreamWrite) (rc : Int) (accepted : Bytes)
    (h : call.exec plat errno ec message = some (rc, accepted)) :
    Accounts message rc accepted ↔ ¬ call.AbortsAfterSend plat := by
  cases call with
  | buffer b c =>
    simp only [exec] at h
    split at h
    · next w hw =>
      obtain ⟨rfl, rfl⟩ := Prod.mk.inj (Option.some.inj h)
      exact iff_of_true (accounts_buffer hw) id
    · cases h
  | file reply =>
    obtain ⟨rfl, rfl⟩ := Prod.mk.inj (Option.some.inj h)
    exact iff_of_true (accounts_file reply) id
  | localSocket replies | tcpSocket replies =>
    simp only [exec] at h
    split at h
    · next r hw =>
      obtain ⟨rfl, rfl⟩ := Prod.mk.inj (Option.some.inj h)
      exact accounts_socket_iff hlen hw
    · cases h

/-- Two of four bytes are sent, the call that would send the rest blocks, and then all go. -/
theorem accounts_retried_send :
    Accounts [1, 2, 3, 4] 4 [1, 2, 3, 4] ↔
      ¬ (tcpSocket [.ok 2, .error 11, .ok 7]).AbortsAfterSend .linux :=
  accounts_iff .linux 0 .clear [1, 2, 3, 4] (by decide) (.tcpSocket [.ok 2, .error 11, .ok 7]) 4
    [1, 2, 3, 4] (by decide)

/-- Two of four bytes are sent before `EPIPE`: the write returns `-1` all the same. -/
theorem not_accounts_broken_pipe :
    (tcpSocket [.ok 2, .error 32]).exec .linux 0 .clear [1, 2, 3, 4] = some (-1, [1, 2]) ∧
      ¬ Accounts [1, 2, 3, 4] (-1) [1, 2] := by
  refine ⟨by decide, fun h => ?_⟩
  exact absurd (h.rejected (by decide)) (by decide)

end StreamWrite

end PfsIo
