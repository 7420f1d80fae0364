import Mathlib.Algebra.Order.Ring.Defs
import Mathlib.Tactic.Linarith

/-! # Leases renewed at fixed times

A lease runs to a deadline, and its holder tries to renew it once every `period`; a renewal moves
the deadline to `term` after the moment it is made, and a missed one leaves it alone. `Lease.Covered`
is what every step keeps, and `Lease.Covered.held` what it is for: after `misses` misses in a row
the lease still holds when the term is `misses + 1` periods or longer.
-/
set_option autoImplicit false

namespace PixelForge.Effects

variable {K : Type} [CommRing K] [LinearOrder K]

/-- The time, the time of the next renewal, the deadline, and the renewals missed since the last
one that was made. -/
structure Lease (K : Type) where
  now : K
  next : K
  deadline : K
  misses : ℕ

namespace Lease

variable {period term : K} {l l' : Lease K}

/-- What can happen to a lease: time passes up to the next renewal, which is made or missed. -/
inductive Step (period term : K) : Lease K → Lease K → Prop
  | pass {l : Lease K} {t : K} (hfrom : l.now ≤ t) (hto : t ≤ l.next) :
      Step period term l { l with now := t }
  | renew {l : Lease K} (hdue : l.now = l.next) :
      Step period term l ⟨l.now, l.now + period, l.now + term, 0⟩
  | miss {l : Lease K} (hdue : l.now = l.next) :
      Step period term l ⟨l.now, l.now + period, l.deadline, l.misses + 1⟩

/-- The next renewal is ahead, and `term` after it is within `misses + 1` periods of the deadline. -/
structure Covered (period term : K) (l : Lease K) : Prop where
  ahead : l.now ≤ l.next
  reach : l.next + term ≤ l.deadline + (l.misses + 1) * period

variable [IsStrictOrderedRing K]

theorem covered_granted (hperiod : 0 ≤ period) {start deadline : K}
    (hdeadline : start + term ≤ deadline) :
    Covered period term ⟨start, start + period, deadline, 0⟩ where
  ahead := by
    show start ≤ start + period
    linarith
  reach := by
    show start + period + term ≤ deadline + ((0 : ℕ) + 1) * period
    rw [Nat.cast_zero, zero_add, one_mul]
    linarith

theorem Covered.step (hperiod : 0 ≤ period) (h : Covered period term l)
    (hstep : Step period term l l') : Covered period term l' := by
  cases hstep with
  | pass hfrom hto => exact ⟨hto, h.reach⟩
  | renew hdue =>
    refine ⟨?_, ?_⟩
    · show l.now ≤ l.now + period
      linarith
    · show l.now + period + term ≤ l.now + term + ((0 : ℕ) + 1) * period
      rw [Nat.cast_zero, zero_add, one_mul]
      linarith
  | miss hdue =>
    refine ⟨?_, ?_⟩
    · show l.now ≤ l.now + period
      linarith
    · show l.now + period + term ≤ l.deadline + ((l.misses + 1 : ℕ) + 1) * period
      have hreach := h.reach
      push_cast
      linarith

/-- A term that began now would reach at most `m + 1` periods past the deadline. -/
theorem Covered.term_le (hperiod : 0 ≤ period) (h : Covered period term l) {m : ℕ}
    (hmisses : l.misses ≤ m) : l.now + term ≤ l.deadline + (m + 1) * period := by
  have hahead := h.ahead
  have hreach := h.reach
  have hcast : (l.misses : K) ≤ m := Nat.cast_le.mpr hmisses
  have hmul : (l.misses + 1) * period ≤ (m + 1) * period :=
    mul_le_mul_of_nonneg_right (by linarith) hperiod
  linarith

/-- **A term of `m + 1` periods outlives `m` misses in a row.** -/
theorem Covered.held (hperiod : 0 ≤ period) (h : Covered period term l) {m : ℕ}
    (hmisses : l.misses ≤ m) (hterm : (m + 1) * period ≤ term) : l.now ≤ l.deadline := by
  have hle := h.term_le hperiod hmisses
  linarith

theorem Covered.held_strictly (hperiod : 0 ≤ period) (h : Covered period term l) {m : ℕ}
    (hmisses : l.misses ≤ m) (hterm : (m + 1) * period < term) : l.now < l.deadline := by
  have hle := h.term_le hperiod hmisses
  linarith

end Lease

end PixelForge.Effects
