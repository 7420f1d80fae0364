import Mathlib.Algebra.GroupWithZero.Nat
import Mathlib.Data.List.Basic

/-! # Counts by key

A counter keeps a number for each key it has met, in the order of their first use.
-/
set_option autoImplicit false

namespace PixelForge

variable {κ : Type} [DecidableEq κ]

/-- One more for `key`, which is created at its first use. -/
def bump {κ : Type} [DecidableEq κ] (key : κ) : List (κ × Nat) → List (κ × Nat)
  | [] => [(key, 1)]
  | (k, n) :: rest => if k = key then (k, n + 1) :: rest else (k, n) :: bump key rest

theorem mem_bump {key k : κ} {d : List (κ × Nat)} :
    k ∈ (bump key d).map Prod.fst ↔ k = key ∨ k ∈ d.map Prod.fst := by
  induction d with
  | nil => simp [bump]
  | cons kn d ih =>
    by_cases hk : kn.1 = key
    · simp [bump, hk]
    · simp only [bump, if_neg hk, List.map_cons, List.mem_cons, ih]
      exact or_left_comm

/-- The sum of the counts. -/
def totalCount (d : List (κ × Nat)) : Nat := (d.map Prod.snd).sum

theorem totalCount_bump (key : κ) (d : List (κ × Nat)) : totalCount (bump key d) = totalCount d + 1 := by
  unfold totalCount
  induction d with
  | nil => rfl
  | cons kn d ih =>
    by_cases hk : kn.1 = key
    · simp only [bump, if_pos hk, List.map_cons, List.sum_cons]
      omega
    · simp only [bump, if_neg hk, List.map_cons, List.sum_cons, ih]
      omega

end PixelForge
