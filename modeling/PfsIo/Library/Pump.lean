import PfsIo.Library.Loop
import PfsIo.Library.Tally

/-!
# Reading to the end, and writing all

Two loops over a device that moves at most so many items at a time, and may move fewer. One reads
until a read returns nothing, and collects what it gets; the other writes a list in blocks, and
erases from the list what a write has taken.

## Main definitions

* `Source`, `Sink` — devices that are read and written.
* `Source.Lawful`, `Sink.Lawful` — a read takes the next items, a write puts items after the others.
* `Source.drain`, `Sink.push` — the loops.

## Main results

* `Source.drain_spec`, `Sink.push_spec` — what the loops leave.
* `Source.drain_counted` — what the reads of the loop return.
* `Source.drain_ends`, `Sink.push_ends` — they end on every sequence of outcomes.
-/

namespace Library

variable {σ ο β : Type*}

/-- A device that is read: a read of at most `n` items returns a count, or a negative value, and
the items. -/
structure Source (σ ο β : Type*) where
  read : Nat → σ → ο → Int × List β × σ
  /-- The items to come. -/
  rest : σ → List β

/-- What a read of at most `n` items returns, where `before` and `after` are to come. -/
inductive Delivers (n : Nat) (before after : List β) : Int → List β → Prop where
  | some (items : List β) : items ≠ [] → items.length ≤ n → before = items ++ after →
      Delivers n before after items.length items
  | none : before = [] ∨ n = 0 → after = before → Delivers n before after 0 []
  | failed (rc : Int) : rc < 0 → after = before → Delivers n before after rc []

theorem Delivers.exact {n : Nat} {before after items : List β} {rc : Int}
    (h : Delivers n before after rc items) : Tally.Exact ⟨rc, items⟩ := by
  cases h with
  | some items _ _ _ => exact .ok items
  | none _ _ => exact .ok []
  | failed _ hneg _ => exact .failed hneg

/-- A device that is written: a write returns the count of the items taken, or a negative value. -/
structure Sink (σ ο β : Type*) where
  write : List β → σ → ο → Int × σ
  /-- The items taken so far. -/
  stored : σ → List β

/-- What a write of a list returns. -/
inductive Takes (items before after : List β) : Int → Prop where
  | some (k : Nat) : k ≤ items.length → (k = 0 → items = []) → after = before ++ items.take k →
      Takes items before after k
  | failed (rc : Int) : rc < 0 → after = before → Takes items before after rc

namespace Source

/-- In the states of an invariant, reads take the next items. -/
structure Lawful (src : Source σ ο β) (inv : σ → Prop) : Prop where
  keeps : ∀ n s o, inv s → inv (src.read n s o).2.2
  delivers : ∀ n s o, inv s →
    Delivers n (src.rest s) (src.rest (src.read n s o).2.2) (src.read n s o).1 (src.read n s o).2.1

/-- The device, what was collected, what the last read has returned, and all reads. -/
structure Drain (σ β : Type*) where
  device : σ
  collected : List β
  last : Int
  reads : List (Tally β)

/-- `while ((n = d.read(buf, size)) > 0) result.append(buf, n)`. -/
def drain (src : Source σ ο β) (size : Nat) : Loop (Drain σ β) ο where
  guard _ := true
  body d o :=
    let r := src.read size d.device o
    let reads := d.reads ++ [⟨r.1, r.2.1⟩]
    if r.1 > 0 then .next ⟨r.2.2, d.collected ++ r.2.1.take r.1.toNat, r.1, reads⟩
    else .leave ⟨r.2.2, d.collected, r.1, reads⟩

variable {src : Source σ ο β} {inv : σ → Prop} {size : Nat} {d t : Drain σ β} {o : ο}

/-- An iteration: more items are collected, or the loop is left at the end or with a failure. -/
inductive DrainStep (src : Source σ ο β) (size : Nat) (d : Drain σ β) :
    Flow (Drain σ β) → Prop where
  | more (device : σ) (items : List β) : items ≠ [] →
      src.rest d.device = items ++ src.rest device →
      DrainStep src size d (.next ⟨device, d.collected ++ items, items.length,
        d.reads ++ [⟨items.length, items⟩]⟩)
  | done (device : σ) : src.rest d.device = [] ∨ size = 0 → src.rest device = src.rest d.device →
      DrainStep src size d (.leave ⟨device, d.collected, 0, d.reads ++ [⟨0, []⟩]⟩)
  | failed (device : σ) (rc : Int) : rc < 0 → src.rest device = src.rest d.device →
      DrainStep src size d (.leave ⟨device, d.collected, rc, d.reads ++ [⟨rc, []⟩]⟩)

theorem Lawful.drainStep (hsrc : src.Lawful inv) (size : Nat) (hd : inv d.device) (o : ο) :
    DrainStep src size d ((src.drain size).body d o) := by
  have hdelivers := hsrc.delivers size d.device o hd
  simp only [drain]
  generalize src.read size d.device o = r at hdelivers ⊢
  obtain ⟨n, items, device⟩ := r
  simp only at hdelivers ⊢
  cases hdelivers with
  | some _ hne hle hrest =>
    have hpos : (items.length : Int) > 0 := by
      have := List.length_pos_iff.mpr hne
      omega
    rw [if_pos hpos, Int.toNat_natCast, List.take_length]
    exact .more device items hne hrest
  | none hend hrest => exact .done device hend hrest
  | failed _ hneg hrest =>
    rw [if_neg (by omega)]
    exact .failed device n hneg hrest

theorem Lawful.device_drain (hsrc : src.Lawful inv) (size : Nat) (hd : inv d.device) (o : ο) :
    inv ((src.drain size).body d o).state.device := by
  have hkeeps := hsrc.keeps size d.device o hd
  simp only [drain]
  split <;> exact hkeeps

theorem Lawful.reads_drain (hsrc : src.Lawful inv) (size : Nat) (hd : inv d.device)
    (hreads : ∀ r ∈ d.reads, r.Exact) (o : ο) :
    ∀ r ∈ ((src.drain size).body d o).state.reads, r.Exact := by
  have hall := Tally.exact_concat hreads (hsrc.delivers size d.device o hd).exact
  simp only [drain]
  split <;> exact hall

/-- Each read of the loop has returned the number of items that it has got. -/
theorem drain_counted (hsrc : src.Lawful inv) {s : σ} (hs : inv s) (last : Int)
    {os rest : List ο} (h : (src.drain size).run ⟨s, [], last, []⟩ os = some (t, rest)) :
    ∀ r ∈ t.reads, r.Exact := by
  refine Loop.run_rule (fun d => inv d.device ∧ ∀ r ∈ d.reads, r.Exact)
    (fun d => ∀ r ∈ d.reads, r.Exact) ?_ ?_ ?_ ⟨hs, by rintro r ⟨⟩⟩ h
  · rintro d o t ⟨hd, hreads⟩ - hb
    have hinv := hsrc.device_drain size hd o
    have hcounted := hsrc.reads_drain size hd hreads o
    rw [hb] at hinv hcounted
    exact ⟨hinv, hcounted⟩
  · rintro d o t ⟨hd, hreads⟩ - hb
    have hcounted := hsrc.reads_drain size hd hreads o
    rwa [hb] at hcounted
  · rintro d - hg
    cases hg

/-- What was collected and what is to come is what was to come. At the end nothing is to come, or
a read has failed. -/
theorem drain_spec (hsrc : src.Lawful inv) (hsize : 0 < size) {s : σ} (hs : inv s) (last : Int)
    {os rest : List ο} (h : (src.drain size).run ⟨s, [], last, []⟩ os = some (t, rest)) :
    t.collected ++ src.rest t.device = src.rest s ∧
      (t.last = 0 ∧ t.collected = src.rest s ∨ t.last < 0) := by
  refine Loop.run_rule
    (fun d => inv d.device ∧ d.collected ++ src.rest d.device = src.rest s)
    (fun d => d.collected ++ src.rest d.device = src.rest s ∧
      (d.last = 0 ∧ d.collected = src.rest s ∨ d.last < 0)) ?_ ?_ ?_ ⟨hs, List.nil_append _⟩ h
  · rintro d o t ⟨hd, hrest⟩ - hb
    have hstep := hsrc.drainStep size hd o
    have hinv := hsrc.device_drain size hd o
    rw [hb] at hstep hinv
    refine ⟨hinv, ?_⟩
    cases hstep with
    | more device items _ heq => rw [List.append_assoc, ← heq, hrest]
  · rintro d o t ⟨hd, hrest⟩ - hb
    have hstep := hsrc.drainStep size hd o
    rw [hb] at hstep
    cases hstep with
    | done device hend heq =>
      have hnil := hend.resolve_right (by omega)
      rw [hnil, List.append_nil] at hrest
      exact ⟨by rw [heq, hnil, List.append_nil, hrest], .inl ⟨rfl, hrest⟩⟩
    | failed device rc hneg heq => exact ⟨by rw [heq, hrest], .inr hneg⟩
  · rintro d - hg
    cases hg

/-- The loop ends: each iteration but the last takes an item. -/
theorem drain_ends (hsrc : src.Lawful inv) (hd : inv d.device) (outcomes : Nat → ο) :
    (src.drain size).Ends d outcomes := by
  refine Loop.ends_of_fair (fun d => (src.rest d.device).length) (fun _ => True)
    (fun d => inv d.device) ?_ (fun _ => ⟨0, trivial⟩) hd
  intro d o t hd _ hb
  have hstep := hsrc.drainStep size hd o
  have hinv := hsrc.device_drain size hd o
  rw [hb] at hstep hinv
  have hlt : (src.rest t.device).length < (src.rest d.device).length := by
    cases hstep with
    | more device items hne heq =>
      have hpos := List.length_pos_iff.mpr hne
      simp only [heq, List.length_append]
      omega
  exact ⟨hinv, Nat.le_of_lt hlt, fun _ => hlt⟩

end Source

namespace Sink

/-- In the states of an invariant, writes put items after those that are stored. -/
structure Lawful (snk : Sink σ ο β) (inv : σ → Prop) : Prop where
  keeps : ∀ items s o, inv s → inv (snk.write items s o).2
  takes : ∀ items s o, inv s →
    Takes items (snk.stored s) (snk.stored (snk.write items s o).2) (snk.write items s o).1

/-- The device, what is still to be written, and what the last write has returned. -/
structure Push (σ β : Type*) where
  device : σ
  source : List β
  last : Int

/-- `while (!source.empty()) { n = d.write(...); if (n <= 0) break; source.erase(0, n); }`, with
blocks of at most `chunk` items. -/
def push (snk : Sink σ ο β) (chunk : Nat) : Loop (Push σ β) ο where
  guard p := !p.source.isEmpty
  body p o :=
    let r := snk.write (p.source.take (min chunk p.source.length)) p.device o
    if r.1 ≤ 0 then .leave ⟨r.2, p.source, r.1⟩ else .next ⟨r.2, p.source.drop r.1.toNat, r.1⟩

variable {snk : Sink σ ο β} {inv : σ → Prop} {chunk : Nat} {p t : Push σ β} {o : ο}

/-- An iteration: items are stored and erased, or a write has failed. -/
inductive PushStep (snk : Sink σ ο β) (p : Push σ β) : Flow (Push σ β) → Prop where
  | more (device : σ) (k : Nat) : 0 < k → k ≤ p.source.length →
      snk.stored device = snk.stored p.device ++ p.source.take k →
      PushStep snk p (.next ⟨device, p.source.drop k, k⟩)
  | failed (device : σ) (rc : Int) : rc < 0 → snk.stored device = snk.stored p.device →
      PushStep snk p (.leave ⟨device, p.source, rc⟩)

theorem Lawful.pushStep (hsnk : snk.Lawful inv) (hchunk : 0 < chunk) (hp : inv p.device)
    (hsource : p.source ≠ []) (o : ο) : PushStep snk p ((snk.push chunk).body p o) := by
  have htakes := hsnk.takes (p.source.take (min chunk p.source.length)) p.device o hp
  have hlen := List.length_pos_iff.mpr hsource
  simp only [push]
  generalize snk.write (p.source.take (min chunk p.source.length)) p.device o = r at htakes ⊢
  obtain ⟨n, device⟩ := r
  simp only at htakes ⊢
  cases htakes with
  | some k hle hzero hstored =>
    have hpos : 0 < k := by
      rcases Nat.eq_zero_or_pos k with hk | hk
      · have hnil := congrArg List.length (hzero hk)
        simp only [List.length_take, List.length_nil] at hnil
        omega
      · exact hk
    rw [List.length_take] at hle
    rw [List.take_take, Nat.min_eq_left (by omega)] at hstored
    rw [if_neg (by omega), Int.toNat_natCast]
    exact .more device k hpos (by omega) hstored
  | failed _ hneg hstored =>
    rw [if_pos (by omega)]
    exact .failed device n hneg hstored

theorem Lawful.device_push (hsnk : snk.Lawful inv) (chunk : Nat) (hp : inv p.device) (o : ο) :
    inv ((snk.push chunk).body p o).state.device := by
  have hkeeps := hsnk.keeps (p.source.take (min chunk p.source.length)) p.device o hp
  simp only [push]
  split <;> exact hkeeps

theorem source_ne_nil (hg : (snk.push chunk).guard p = true) : p.source ≠ [] := by
  simpa [push] using hg

/-- What is stored and what is still to be written are what was stored and to be written. At the
end nothing is left, or a write has failed. -/
theorem push_spec (hsnk : snk.Lawful inv) (hchunk : 0 < chunk) (hp : inv p.device)
    (hlast : 0 ≤ p.last) {os rest : List ο} (h : (snk.push chunk).run p os = some (t, rest)) :
    inv t.device ∧ snk.stored t.device ++ t.source = snk.stored p.device ++ p.source ∧
      (t.source = [] ∧ 0 ≤ t.last ∨ t.source ≠ [] ∧ t.last < 0) := by
  refine Loop.run_rule
    (fun q => inv q.device ∧ snk.stored q.device ++ q.source = snk.stored p.device ++ p.source ∧
      0 ≤ q.last)
    (fun q => inv q.device ∧ snk.stored q.device ++ q.source = snk.stored p.device ++ p.source ∧
      (q.source = [] ∧ 0 ≤ q.last ∨ q.source ≠ [] ∧ q.last < 0)) ?_ ?_ ?_ ⟨hp, rfl, hlast⟩ h
  · rintro q o t ⟨hq, hstored, hlast⟩ hg hb
    have hstep := hsnk.pushStep hchunk hq (source_ne_nil hg) o
    have hinv := hsnk.device_push chunk hq o
    rw [hb] at hstep hinv
    refine ⟨hinv, ?_⟩
    cases hstep with
    | more device k _ _ heq =>
      exact ⟨by rw [heq, List.append_assoc, List.take_append_drop, hstored], Int.natCast_nonneg k⟩
  · rintro q o t ⟨hq, hstored, hlast⟩ hg hb
    have hsource := source_ne_nil hg
    have hstep := hsnk.pushStep hchunk hq hsource o
    have hinv := hsnk.device_push chunk hq o
    rw [hb] at hstep hinv
    refine ⟨hinv, ?_⟩
    cases hstep with
    | failed device rc hneg heq => exact ⟨by rw [heq, hstored], .inr ⟨hsource, hneg⟩⟩
  · rintro q ⟨hq, hstored, hlast⟩ hg
    exact ⟨hq, hstored, .inl ⟨by simpa [push] using hg, hlast⟩⟩

/-- The loop ends: each iteration but the last erases an item. -/
theorem push_ends (hsnk : snk.Lawful inv) (hchunk : 0 < chunk) (hp : inv p.device)
    (outcomes : Nat → ο) : (snk.push chunk).Ends p outcomes := by
  refine Loop.ends_of_fair (fun q => q.source.length) (fun _ => True) (fun q => inv q.device) ?_
    (fun _ => ⟨0, trivial⟩) hp
  intro q o t hq hg hb
  have hstep := hsnk.pushStep hchunk hq (source_ne_nil hg) o
  have hinv := hsnk.device_push chunk hq o
  rw [hb] at hstep hinv
  have hlt : t.source.length < q.source.length := by
    cases hstep with
    | more device k hpos hle _ =>
      simp only [List.length_drop]
      omega
  exact ⟨hinv, Nat.le_of_lt hlt, fun _ => hlt⟩

end Sink

end Library
