import Mathlib.Algebra.GroupWithZero.Nat
import Mathlib.Data.List.DropRight
import WindowJoin.Backoff

/-!
# The waits of a backoff

A backoff counts the failures since the last success, and the wait that comes next is the base doubled
once for each of them, up to the limit. `BoundedBackoff.Counts` says so of a backoff, and each
operation keeps it: where doubling stops at the longest duration, the limit would have cut the wait in
any case. Main statement: `BoundedBackoff.waits_double_to_limit`.
-/

namespace WindowJoin

namespace BoundedBackoff

/-- The backoff has seen this many failures since its last success, and has counted them as far as
32 bits go. -/
structure Counts (backoff : BoundedBackoff) (base limit : Duration) (failures : Nat) : Prop where
  base_eq : backoff.base = base
  limit_eq : backoff.limit = limit
  attempts_eq : backoff.attempts = UInt32.ofNat failures
  delay_eq : backoff.next.1.toNanos = min (base.toNanos * 2 ^ failures) limit.toNanos

variable {backoff : BoundedBackoff} {base limit : Duration} {failures : Nat}

theorem new_counts (base limit : Duration) : (new base limit).Counts base limit 0 where
  base_eq := rfl
  limit_eq := rfl
  attempts_eq := rfl
  delay_eq := by
    show (min base limit).toNanos = _
    rw [Duration.min_to_nanos, Nat.pow_zero, Nat.mul_one]

theorem Counts.reset (h : backoff.Counts base limit failures) :
    backoff.reset.Counts base limit 0 where
  base_eq := h.base_eq
  limit_eq := h.limit_eq
  attempts_eq := rfl
  delay_eq := by
    show (min backoff.base backoff.limit).toNanos = _
    rw [Duration.min_to_nanos, h.base_eq, h.limit_eq, Nat.pow_zero, Nat.mul_one]

/-- One more failure doubles the wait that comes next. -/
theorem Counts.next (h : backoff.Counts base limit failures) :
    backoff.next.2.Counts base limit (failures + 1) where
  base_eq := h.base_eq
  limit_eq := h.limit_eq
  attempts_eq := by
    show backoff.attempts + 1 = _
    rw [h.attempts_eq, UInt32.ofNat_add]
    rfl
  delay_eq := by
    have hdelay : (min backoff.upcoming backoff.limit).toNanos = _ := h.delay_eq
    -- The limit is a duration, so it is not longer than the longest one.
    have hlongest := limit.to_nanos_le_longest
    show (min (min (backoff.upcoming.timesSaturating 2) backoff.limit) backoff.limit).toNanos = _
    rw [h.limit_eq] at hdelay ⊢
    simp only [Duration.min_to_nanos, Duration.times_saturating_to_nanos] at hdelay ⊢
    rw [Nat.pow_succ, ← Nat.mul_assoc]
    omega

/-- The count is exact as long as it fits in 32 bits. -/
theorem Counts.attempts_to_nat (h : backoff.Counts base limit failures)
    (hfits : failures < UInt32.size) : backoff.attempts.toNat = failures := by
  rw [h.attempts_eq, UInt32.toNat_ofNat_of_lt' hfits]

/-! ## Calls in turn -/

/-- A call of a backoff. -/
inductive Call where
  | next
  | reset
  deriving DecidableEq, Repr

/-- A backoff after a call. -/
def call (backoff : BoundedBackoff) : Call → BoundedBackoff
  | .next => backoff.next.2
  | .reset => backoff.reset

/-- A backoff after some calls in turn. -/
def after (backoff : BoundedBackoff) (calls : List Call) : BoundedBackoff :=
  calls.foldl call backoff

/-- The number of failures behind the last success. -/
def failuresInARow (calls : List Call) : Nat :=
  (calls.rtakeWhile (· = .next)).length

theorem failures_in_a_row_concat (calls : List Call) (last : Call) :
    failuresInARow (calls ++ [last]) = if last = .next then failuresInARow calls + 1 else 0 := by
  rw [failuresInARow, List.rtakeWhile_concat]
  simp only [decide_eq_true_eq]
  split
  · exact List.length_append
  · rfl

/-- More failures add to those in a row. -/
theorem failures_in_a_row_more (calls : List Call) (more : Nat) :
    failuresInARow (calls ++ List.replicate more .next) = failuresInARow calls + more := by
  induction more with
  | zero => rw [List.replicate_zero, List.append_nil, Nat.add_zero]
  | succ more ih =>
      rw [List.replicate_succ', ← List.append_assoc, failures_in_a_row_concat, if_pos rfl, ih,
        Nat.add_assoc]

/-- Whatever calls a new backoff has had, it has counted the failures behind the last success. -/
theorem after_counts (base limit : Duration) (calls : List Call) :
    ((new base limit).after calls).Counts base limit (failuresInARow calls) := by
  -- The last call decides what has been counted, so the calls are taken apart at their end.
  induction calls using List.reverseRecOn with
  | nil => exact new_counts base limit
  | append_singleton calls last ih =>
      rw [after, List.foldl_concat, failures_in_a_row_concat]
      cases last with
      | next => exact ih.next
      | reset => exact ih.reset

/-- Whatever calls a bounded backoff has had, the wait that comes next is the base doubled once for
each failure since the last success, or the limit if that is shorter, also where that many doublings
lead out of the range of durations. The count is that of these failures, as long as it fits in 32
bits. As long as there is no success the waits get no shorter, and none is longer than the limit. -/
theorem waits_double_to_limit (base limit : Duration) (calls : List Call) :
    let backoff := (new base limit).after calls
    backoff.next.1.toNanos = min (base.toNanos * 2 ^ failuresInARow calls) limit.toNanos ∧
      (failuresInARow calls < 2 ^ 32 → backoff.attempts.toNat = failuresInARow calls) ∧
      (∀ more : Nat, backoff.next.1 ≤ (backoff.after (List.replicate more .next)).next.1) ∧
      backoff.next.1 ≤ limit := by
  intro backoff
  have hcounts : backoff.Counts base limit (failuresInARow calls) := after_counts base limit calls
  refine ⟨hcounts.delay_eq, hcounts.attempts_to_nat, fun more => ?_, ?_⟩
  · have hlater := (after_counts base limit (calls ++ List.replicate more .next)).delay_eq
    rw [failures_in_a_row_more, after, List.foldl_append] at hlater
    have hgrows : base.toNanos * 2 ^ failuresInARow calls ≤
        base.toNanos * 2 ^ (failuresInARow calls + more) :=
      Nat.mul_le_mul_left _ (Nat.pow_le_pow_right Nat.two_pos (Nat.le_add_right _ more))
    rw [Duration.le_iff_to_nanos]
    calc backoff.next.1.toNanos
      _ = min (base.toNanos * 2 ^ failuresInARow calls) limit.toNanos := hcounts.delay_eq
      _ ≤ min (base.toNanos * 2 ^ (failuresInARow calls + more)) limit.toNanos := by omega
      _ = (backoff.after (List.replicate more .next)).next.1.toNanos := hlater.symm
  · rw [Duration.le_iff_to_nanos, hcounts.delay_eq]
    exact Nat.min_le_right _ _

/-- With no limit below the longest duration, half of the range doubles out of it at the first
failure, and stays at the longest duration behind the second. -/
theorem waits_double_to_limit_sample :
    let half : Duration := ⟨2 ^ 63, 0, by decide, by decide⟩
    let calls : List Call := [.next, .reset, .next, .next]
    let backoff := (new half .longest).after calls
    Duration.longest.toNanos < half.toNanos * 2 ^ failuresInARow calls ∧
      backoff.next.1.toNanos =
        min (half.toNanos * 2 ^ failuresInARow calls) Duration.longest.toNanos ∧
      backoff.next.1 = .longest ∧
      failuresInARow calls < 2 ^ 32 ∧ backoff.attempts.toNat = 2 ∧
      backoff.next.1 ≤ (backoff.after (List.replicate 3 .next)).next.1 ∧
      backoff.next.1 ≤ .longest := by
  intro half calls backoff
  have hcount : failuresInARow calls < 2 ^ 32 := by decide
  obtain ⟨hdelay, hattempts, hgrows, hlimit⟩ := waits_double_to_limit half .longest calls
  exact ⟨by decide, hdelay, by decide, hcount, hattempts hcount, hgrows 3, hlimit⟩

end BoundedBackoff

end WindowJoin
