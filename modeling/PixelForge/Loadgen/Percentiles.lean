import Mathlib.Data.List.Sort
import Mathlib.Data.Rat.Floor
import Mathlib.Tactic.Linarith

/-! # Reported percentiles (`_percentiles`)

The rank that `_percentiles` takes is the `p`-hundredth part of the number of samples, rounded half to
even, where a percentile needs it rounded up. So the value it reports is a percentile unless the
rounding went down past a sample that differs (`Short`).
-/
set_option autoImplicit false

namespace PixelForge

/-! ## Samples in order -/

section Sorted

variable {α : Type} [LinearOrder α] {l : List α} {i : Nat}

/-- The first `i + 1` elements of a sorted list are at most the last of these. -/
theorem countP_take_of_sorted (h : l.Pairwise (· ≤ ·)) (hi : i < l.length) :
    (l.take (i + 1)).countP (· ≤ l[i]) = i + 1 := by
  have hall : ∀ x ∈ l.take (i + 1), decide (x ≤ l[i]) = true := by
    intro x hx
    obtain ⟨j, hj, rfl⟩ := List.getElem_of_mem hx
    rw [List.length_take] at hj
    rw [List.getElem_take, decide_eq_true_eq]
    obtain hlt | rfl : j < i ∨ j = i := by omega
    · exact List.pairwise_iff_getElem.mp h j i (by omega) hi hlt
    · exact le_refl _
  rw [List.countP_eq_length.mpr hall, List.length_take]
  omega

theorem lt_countP_of_sorted (h : l.Pairwise (· ≤ ·)) (hi : i < l.length) :
    i < l.countP (· ≤ l[i]) := by
  have hsplit := congrArg (List.countP (· ≤ l[i])) (List.take_append_drop (i + 1) l)
  rw [List.countP_append, countP_take_of_sorted h hi] at hsplit
  omega

/-- Where the list goes up, nothing behind counts. -/
theorem countP_of_sorted_lt (h : l.Pairwise (· ≤ ·)) (hi : i + 1 < l.length) (hlt : l[i] < l[i + 1]) :
    l.countP (· ≤ l[i]) = i + 1 := by
  have hnone : (l.drop (i + 1)).countP (· ≤ l[i]) = 0 := by
    rw [List.countP_eq_zero]
    intro x hx
    obtain ⟨j, hj, rfl⟩ := List.getElem_of_mem hx
    rw [List.length_drop] at hj
    rw [List.getElem_drop, decide_eq_true_eq, not_le]
    refine lt_of_lt_of_le hlt ?_
    obtain hlt | rfl : 0 < j ∨ j = 0 := by omega
    · exact List.pairwise_iff_getElem.mp h (i + 1) (i + 1 + j) hi (by omega) (by omega)
    · exact le_refl _
  have hsplit := congrArg (List.countP (· ≤ l[i])) (List.take_append_drop (i + 1) l)
  rw [List.countP_append, countP_take_of_sorted h (by omega), hnone] at hsplit
  exact hsplit.symm

end Sorted

/-! ## Rounding half to even -/

/-- `round(x)`. -/
def roundHalfEven (x : Rat) : Int :=
  let down := ⌊x⌋
  let rest := x - down
  if rest < 1 / 2 then down
  else if 1 / 2 < rest then down + 1
  else if down % 2 = 0 then down
  else down + 1

theorem roundHalfEven_hundredths (m : Nat) : roundHalfEven ((m : Rat) / 100) =
    if m % 100 < 50 ∨ m % 100 = 50 ∧ m / 100 % 2 = 0 then (m / 100 : Nat) else (m / 100 : Nat) + 1 := by
  have hfloor : ⌊(m : Rat) / 100⌋ = ((m / 100 : Nat) : Int) := by
    have h := Rat.floor_natCast_div_natCast m 100
    exact_mod_cast h
  have hrest : (m : Rat) / 100 - ((m / 100 : Nat) : Int) = ((m % 100 : Nat) : Rat) / 100 := by
    have hdiv : ((100 * (m / 100) + m % 100 : Nat) : Rat) = m := by rw [Nat.div_add_mod]
    rw [Nat.cast_add, Nat.cast_mul] at hdiv
    rw [Int.cast_natCast, ← hdiv]
    push_cast
    ring
  have hhalf : (1 : Rat) / 2 = ((50 : Nat) : Rat) / 100 := by norm_num
  have hlt : ∀ a b : Nat, (a : Rat) / 100 < (b : Rat) / 100 ↔ a < b := fun a b => by
    rw [div_lt_div_iff_of_pos_right (by norm_num), Nat.cast_lt]
  unfold roundHalfEven
  dsimp only
  rw [hfloor, hrest, hhalf]
  simp only [hlt]
  split_ifs <;> omega

/-! ## The percentiles -/

/-- `_PERCENTILES`. -/
def reportedPercentiles : List Nat := [50, 90, 95, 99]

/-- The index into the ordered samples, before it is raised to 0. -/
def percentileIndex (percentile count : Nat) : Int :=
  min ((count : Int) - 1) (roundHalfEven ((percentile : Rat) / 100 * count) - 1)

/-- The index that is used. -/
def usedIndex (percentile count : Nat) : Int := max (percentileIndex percentile count) 0

section Samples

variable {α : Type} [LinearOrder α]

/-- `sorted(samples)`. -/
abbrev ordered (samples : List α) : List α := samples.mergeSort (· ≤ ·)

/-- The sample that is reported. -/
def reportedSample (samples : List α) (percentile : Nat) : Option α :=
  (ordered samples)[(usedIndex percentile samples.length).toNat]?

end Samples

/-- `round(x, 2)`. -/
def roundToHundredths (x : Rat) : Rat := roundHalfEven (x * 100) / 100

/-- `_percentiles`, of samples in seconds, in milliseconds. -/
def percentiles (samples : List Rat) : List (String × Rat) :=
  reportedPercentiles.map fun percentile =>
    (s!"p{percentile}", match reportedSample samples percentile with
      | some sample => roundToHundredths (sample * 1000)
      | none => 0)

/-! ## Which of them are percentiles -/

section Reports

variable {α : Type} [LinearOrder α] {samples : List α} {p q n : Nat} {v w : α}

/-- At least `p` percent of the samples are at most `v`. -/
def IsPercentile (samples : List α) (p : Nat) (v : α) : Prop :=
  p * samples.length ≤ 100 * samples.countP (· ≤ v)

/-- The `p`-hundredth part of `n` is rounded down. -/
def RoundsDown (p n : Nat) : Prop :=
  p * n % 100 ≠ 0 ∧ (p * n % 100 < 50 ∨ p * n % 100 = 50 ∧ p * n / 100 % 2 = 0)

instance (p n : Nat) : Decidable (RoundsDown p n) := inferInstanceAs (Decidable (_ ∧ _))

/-- The rounding goes down past a sample that is larger than the ones before it. -/
def Short (samples : List α) (p : Nat) : Prop :=
  RoundsDown p samples.length ∧ ∃ i x y, i + 1 = p * samples.length / 100 ∧
    (ordered samples)[i]? = some x ∧ (ordered samples)[i + 1]? = some y ∧ x < y

theorem usedIndex_eq (hp : p < 100) (hn : 0 < n) : ∃ i : Nat, usedIndex p n = i ∧ i < n ∧
    i + 1 = max 1 (if p * n % 100 = 0 ∨ RoundsDown p n then p * n / 100 else p * n / 100 + 1) := by
  have hx : (p : Rat) / 100 * n = ((p * n : Nat) : Rat) / 100 := by
    push_cast
    ring
  have hlt : p * n / 100 < n := by
    have hmul : p * n < 100 * n := Nat.mul_lt_mul_of_pos_right hp hn
    omega
  unfold usedIndex percentileIndex RoundsDown
  rw [hx, roundHalfEven_hundredths]
  split_ifs <;> refine ⟨_, (Int.toNat_of_nonneg (le_max_right _ _)).symm, ?_, ?_⟩ <;> omega

theorem usedIndex_mono (hpq : p ≤ q) (hq : q < 100) (hn : 0 < n) : usedIndex p n ≤ usedIndex q n := by
  obtain ⟨i, hi, -, hrank⟩ := usedIndex_eq (lt_of_le_of_lt hpq hq) hn
  obtain ⟨j, hj, -, hrank'⟩ := usedIndex_eq hq hn
  have hmul : p * n ≤ q * n := Nat.mul_le_mul_right n hpq
  rw [hi, hj]
  unfold RoundsDown at hrank hrank'
  split_ifs at hrank hrank' <;> omega

theorem ordered_pairwise (samples : List α) : (ordered samples).Pairwise (· ≤ ·) :=
  List.pairwise_mergeSort' (· ≤ ·) samples

theorem countP_ordered (samples : List α) (v : α) :
    (ordered samples).countP (· ≤ v) = samples.countP (· ≤ v) :=
  (List.mergeSort_perm samples _).countP_eq _

theorem reportedSample_eq (hp : p < 100) (hne : samples ≠ []) :
    ∃ (i : Nat) (hi : i < (ordered samples).length), usedIndex p samples.length = i ∧
      reportedSample samples p = some (ordered samples)[i] := by
  obtain ⟨i, hi, hlt, -⟩ := usedIndex_eq hp (List.length_pos_of_ne_nil hne)
  have hlength : (ordered samples).length = samples.length := List.length_mergeSort samples
  refine ⟨i, hlength ▸ hlt, hi, ?_⟩
  rw [reportedSample, hi, Int.toNat_natCast, List.getElem?_eq_getElem]

theorem reportedSample_mem (hp : p < 100) (hne : samples ≠ []) :
    ∃ v ∈ samples, reportedSample samples p = some v := by
  obtain ⟨i, hi, -, hreported⟩ := reportedSample_eq hp hne
  exact ⟨_, List.mem_mergeSort.mp (List.getElem_mem hi), hreported⟩

theorem small_of_reported : ∀ p ∈ reportedPercentiles, p < 100 := by decide

/-- Each entry of the report is one of the samples, in milliseconds to two places, under the name of
its percentile. -/
theorem percentiles_entries {samples : List Rat} (hne : samples ≠ []) {e : String × Rat}
    (he : e ∈ percentiles samples) : ∃ p ∈ reportedPercentiles, ∃ v ∈ samples,
      reportedSample samples p = some v ∧ e = (s!"p{p}", roundToHundredths (v * 1000)) := by
  obtain ⟨p, hp, rfl⟩ := List.mem_map.mp he
  obtain ⟨v, hv, hreported⟩ := reportedSample_mem (small_of_reported p hp) hne
  exact ⟨p, hp, v, hv, hreported, by rw [hreported]⟩

/-- **A reported value is a percentile exactly when the rounding is not short.** -/
theorem isPercentile_iff (hp : p < 100) (hne : samples ≠ []) (hv : reportedSample samples p = some v) :
    IsPercentile samples p v ↔ ¬ Short samples p := by
  obtain ⟨i, hi, hused, hreported⟩ := reportedSample_eq hp hne
  obtain rfl := Option.some.inj (hv.symm.trans hreported)
  obtain ⟨i', hi', hlt, hrank⟩ := usedIndex_eq hp (List.length_pos_of_ne_nil hne)
  obtain rfl : i = i' := Int.ofNat.inj (hused.symm.trans hi')
  have hcount := lt_countP_of_sorted (ordered_pairwise samples) hi
  have hlength : (ordered samples).length = samples.length := List.length_mergeSort samples
  have hmul : p * samples.length < 100 * samples.length :=
    Nat.mul_lt_mul_of_pos_right hp (List.length_pos_of_ne_nil hne)
  rw [IsPercentile, ← countP_ordered]
  by_cases hdown : RoundsDown p samples.length
  · have hrest := hdown.1
    rw [if_pos (.inr hdown)] at hrank
    by_cases hfirst : p * samples.length / 100 = 0
    · have hnot : ¬ Short samples p := by
        rintro ⟨-, j, x, y, hj, -⟩
        omega
      exact iff_of_true (by omega) hnot
    · have hnext : i + 1 < (ordered samples).length := by omega
      have hle := List.pairwise_iff_getElem.mp (ordered_pairwise samples) i (i + 1) hi hnext (by omega)
      obtain hlt | heq := lt_or_eq_of_le hle
      · have hshort : Short samples p := ⟨hdown, i, _, _, by omega, List.getElem?_eq_getElem hi,
          List.getElem?_eq_getElem hnext, hlt⟩
        rw [countP_of_sorted_lt (ordered_pairwise samples) hnext hlt]
        exact iff_of_false (by omega) (not_not.mpr hshort)
      · have hnot : ¬ Short samples p := by
          rintro ⟨-, j, x, y, hj, hx, hy, hxy⟩
          obtain rfl : i = j := by omega
          rw [List.getElem?_eq_getElem hi] at hx
          rw [List.getElem?_eq_getElem hnext] at hy
          rw [← Option.some.inj hx, ← Option.some.inj hy, heq] at hxy
          exact lt_irrefl _ hxy
        have hcount' : i + 1 < (ordered samples).countP (· ≤ (ordered samples)[i]) := by
          rw [heq]
          exact lt_countP_of_sorted (ordered_pairwise samples) hnext
        exact iff_of_true (by omega) hnot
  · have hnot : ¬ Short samples p := fun h => hdown h.1
    refine iff_of_true ?_ hnot
    simp only [or_iff_left hdown] at hrank
    split_ifs at hrank <;> omega

/-- What the report says of the samples. -/
structure PercentilesReported (samples : List α) : Prop where
  inRange : ∀ p ∈ reportedPercentiles, 0 ≤ usedIndex p samples.length ∧
    usedIndex p samples.length < samples.length
  sample : ∀ p ∈ reportedPercentiles, ∃ v, reportedSample samples p = some v ∧ v ∈ samples ∧
    IsPercentile samples p v
  monotone : ∀ p ∈ reportedPercentiles, ∀ q ∈ reportedPercentiles, p ≤ q →
    ∀ v w, reportedSample samples p = some v → reportedSample samples q = some w → v ≤ w

/-- **The report is right exactly when no reported percentile is short.** The index is always in range,
the value always a sample, and the values always in order. -/
theorem percentilesReported_iff (hne : samples ≠ []) :
    PercentilesReported samples ↔ ∀ p ∈ reportedPercentiles, ¬ Short samples p := by
  constructor
  · intro h p hp
    obtain ⟨v, hv, -, hpercentile⟩ := h.sample p hp
    exact (isPercentile_iff (small_of_reported p hp) hne hv).mp hpercentile
  · intro h
    refine ⟨fun p hp => ?_, fun p hp => ?_, fun p hp q hq hpq v w hv hw => ?_⟩
    · obtain ⟨i, hi, hlt, -⟩ := usedIndex_eq (small_of_reported p hp) (List.length_pos_of_ne_nil hne)
      rw [hi]
      omega
    · obtain ⟨v, hv, hreported⟩ := reportedSample_mem (small_of_reported p hp) hne
      exact ⟨v, hreported, hv, (isPercentile_iff (small_of_reported p hp) hne hreported).mpr (h p hp)⟩
    · obtain ⟨i, hi, hused, hreported⟩ := reportedSample_eq (small_of_reported p hp) hne
      obtain ⟨j, hj, hused', hreported'⟩ := reportedSample_eq (small_of_reported q hq) hne
      obtain rfl := Option.some.inj (hv.symm.trans hreported)
      obtain rfl := Option.some.inj (hw.symm.trans hreported')
      have hmono := usedIndex_mono hpq (small_of_reported q hq) (List.length_pos_of_ne_nil hne)
      obtain hlt | rfl : i < j ∨ i = j := by omega
      · exact List.pairwise_iff_getElem.mp (ordered_pairwise samples) i j hi hj hlt
      · exact le_refl _

end Reports

/-- Of five different samples two are at most the reported median. -/
theorem median_short : reportedSample ([1, 2, 3, 4, 5] : List Rat) 50 = some 2 ∧
    ¬ IsPercentile ([1, 2, 3, 4, 5] : List Rat) 50 2 := by
  have hordered : ordered ([1, 2, 3, 4, 5] : List Rat) = [1, 2, 3, 4, 5] :=
    List.mergeSort_of_pairwise (by decide +kernel)
  have hindex : usedIndex 50 5 = 1 := by decide +kernel
  constructor
  · rw [reportedSample, hordered]
    exact congrArg (fun i : Int => ([1, 2, 3, 4, 5] : List Rat)[i.toNat]?) hindex
  · unfold IsPercentile
    decide +kernel

/-- Of four samples the median is the second. -/
theorem percentilesReported_four : PercentilesReported ([1, 2, 3, 4] : List Rat) := by
  refine (percentilesReported_iff (List.cons_ne_nil _ _)).mpr fun p hp hshort => ?_
  have hup : ∀ p ∈ reportedPercentiles, ¬ RoundsDown p 4 := by decide
  exact hup p hp hshort.1

end PixelForge
