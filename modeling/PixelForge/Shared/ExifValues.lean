import PixelForge.Shared.Surroundings

/-! # What `_normalise_exif_value` keeps

`PyVal.ExifSafe` are the values that JSON and DynamoDB take at every level. A normalised value is one of
them unless a float that is not finite, or a rational with a part too large for a `float`, is reached on
the way.
-/
set_option autoImplicit false

namespace PixelForge

/-! ## Safe values -/

def PyFloat.isFinite : PyFloat → Bool
  | .finite _ => true
  | _ => false

mutual
/-- A non-empty string of at most 256 characters without NUL, a boolean, an integer, a finite float, or a
non-empty list of at most 16 such values. -/
def PyVal.ExifSafe : PyVal → Prop
  | .str s => s ≠ "" ∧ s.length ≤ 256 ∧ '\x00' ∉ s.toList
  | .bool _ => True
  | .int _ => True
  | .float x => x.isFinite = true
  | .list vs => vs ≠ [] ∧ vs.length ≤ 16 ∧ ExifSafeList vs
  | _ => False

def ExifSafeList : List PyVal → Prop
  | [] => True
  | v :: vs => v.ExifSafe ∧ ExifSafeList vs
end

/-! ## What is reached -/

mutual
/-- Every number that is reached is finite as a float: of a sequence, only the first sixteen items are
reached, and of a rational with denominator zero neither part is converted. -/
def ExifValue.Finite : ExifValue → Prop
  | .bytes => True
  | .str _ => True
  | .bool _ => True
  | .int _ => True
  | .float x => x.isFinite = true
  | .rational n d => d = 0 ∨ (fitsFloat n && fitsFloat d) = true
  | .seq vs => FiniteUpTo 16 vs
  | .other => True

def FiniteUpTo : Nat → List ExifValue → Prop
  | 0, _ => True
  | _ + 1, [] => True
  | left + 1, v :: vs => v.Finite ∧ FiniteUpTo left vs
end

/-- Python's arithmetic of floats: rounding keeps a float finite and makes none so, and so does the
division of the floats of two integers, the second of them not zero. -/
structure Externals.Arithmetic (ext : Externals) : Prop where
  round6 : ∀ x, (ext.round6 x).isFinite = x.isFinite
  ratio6 : ∀ n d, d ≠ 0 → (fitsFloat n && fitsFloat d) = true → (ext.ratio6 n d).isFinite = true

/-- `_normalise_exif_value` returns `None` or a safe value. -/
def NormalisesSafely (ext : Externals) (v : ExifValue) : Prop :=
  ∃ kept, normaliseExifValue ext v = .ok kept ∧ ∀ w ∈ kept, w.ExifSafe

section Normalised

variable {ext : Externals}

/-- The items that are kept are at most as many as are looked at. -/
theorem length_normaliseExifList {left : Nat} {vs : List ExifValue} {kept : List PyVal}
    (h : normaliseExifList ext left vs = .ok kept) : kept.length ≤ left := by
  induction left generalizing vs kept with
  | zero =>
    rw [normaliseExifList] at h
    exact Except.ok.inj h ▸ Nat.le_refl 0
  | succ left ih =>
    cases vs with
    | nil =>
      rw [normaliseExifList] at h
      exact Except.ok.inj h ▸ Nat.zero_le _
    | cons v vs =>
      rw [normaliseExifList] at h
      obtain ⟨item, -, h⟩ := ok_of_bind_ok h
      obtain ⟨rest, hrest, h⟩ := ok_of_bind_ok h
      obtain rfl := Except.ok.inj h
      have hle := ih hrest
      have hitem : item.toList.length ≤ 1 := by cases item <;> simp
      rw [List.length_append]
      omega

theorem exifSafe_cleaned {s : String} (hne : strip (s.toList.filter (· != '\x00')) ≠ []) :
    (PyVal.str (String.ofList ((strip (s.toList.filter (· != '\x00'))).take 256))).ExifSafe := by
  rw [PyVal.ExifSafe]
  refine ⟨fun hempty => ?_, ?_, fun hnul => ?_⟩
  · have hnil := congrArg String.toList hempty
    rw [String.toList_ofList] at hnil
    obtain h | h := List.take_eq_nil_iff.mp hnil
    · cases h
    · exact hne h
  · rw [← String.length_toList, String.toList_ofList, List.length_take]
    exact Nat.min_le_left _ _
  · rw [String.toList_ofList] at hnul
    have hmem := mem_strip (List.mem_of_mem_take hnul)
    exact absurd (List.of_mem_filter hmem) (by decide)

theorem normalisesSafely_ok {v : ExifValue} {kept : Option PyVal}
    (h : normaliseExifValue ext v = .ok kept) :
    NormalisesSafely ext v ↔ ∀ w ∈ kept, w.ExifSafe := by
  rw [NormalisesSafely, h]
  exact ⟨fun ⟨_, he, hw⟩ => Except.ok.inj he ▸ hw, fun hw => ⟨kept, rfl, hw⟩⟩

theorem normalisesSafely_none {v : ExifValue} (h : normaliseExifValue ext v = .ok none) :
    NormalisesSafely ext v := ⟨none, h, fun _ hw => absurd hw (Option.not_mem_none _)⟩

theorem exifSafeList_append (vs ws : List PyVal) :
    ExifSafeList (vs ++ ws) ↔ ExifSafeList vs ∧ ExifSafeList ws := by
  induction vs with
  | nil => simp only [List.nil_append, ExifSafeList, true_and]
  | cons v vs ih => rw [List.cons_append, ExifSafeList, ih, ExifSafeList, and_assoc]

theorem exifSafeList_toList (item : Option PyVal) :
    ExifSafeList item.toList ↔ ∀ w ∈ item, w.ExifSafe := by
  cases item with
  | none => exact iff_of_true (by trivial) fun _ hw => absurd hw (Option.not_mem_none _)
  | some w => simp [ExifSafeList]

/-- The items of a sequence are safe when each of those that are reached is. -/
theorem normaliseExifList_safe_iff {vs : List ExifValue}
    (hitems : ∀ v ∈ vs, NormalisesSafely ext v ↔ v.Finite) (left : Nat) :
    (∃ kept, normaliseExifList ext left vs = .ok kept ∧ ExifSafeList kept) ↔ FiniteUpTo left vs := by
  induction left generalizing vs with
  | zero =>
    rw [normaliseExifList, FiniteUpTo]
    exact iff_of_true ⟨[], rfl, trivial⟩ trivial
  | succ left ih =>
    cases vs with
    | nil =>
      rw [normaliseExifList, FiniteUpTo]
      exact iff_of_true ⟨[], rfl, trivial⟩ trivial
    | cons v vs =>
      have hitem := hitems v List.mem_cons_self
      have hrest := ih fun v' hv' => hitems v' (List.mem_cons_of_mem _ hv')
      rw [normaliseExifList, FiniteUpTo, ← hitem, ← hrest]
      constructor
      · rintro ⟨all, hall, hsafe⟩
        obtain ⟨item, hone, hall⟩ := ok_of_bind_ok hall
        obtain ⟨kept, hkept, hall⟩ := ok_of_bind_ok hall
        obtain rfl := Except.ok.inj hall
        rw [exifSafeList_append, exifSafeList_toList] at hsafe
        exact ⟨⟨item, hone, hsafe.1⟩, kept, hkept, hsafe.2⟩
      · rintro ⟨⟨item, hone, hsafe⟩, kept, hkept, hsafes⟩
        refine ⟨item.toList ++ kept, ?_, ?_⟩
        · rw [hone, hkept]
          rfl
        · exact (exifSafeList_append _ _).mpr ⟨(exifSafeList_toList item).mpr hsafe, hsafes⟩

/-- **A value is normalised to a safe one** exactly when every number that is reached is finite as a
float. -/
theorem normaliseExifValue_safe_iff (harith : ext.Arithmetic) (v : ExifValue) :
    NormalisesSafely ext v ↔ v.Finite := by
  cases v with
  | bytes =>
    rw [ExifValue.Finite]
    exact iff_of_true (normalisesSafely_none (by rw [normaliseExifValue])) trivial
  | str s =>
    rw [ExifValue.Finite]
    by_cases hne : strip (s.toList.filter (· != '\x00')) = []
    · exact iff_of_true (normalisesSafely_none (by simp [normaliseExifValue, hne])) trivial
    · rw [normalisesSafely_ok (by rw [normaliseExifValue]), if_neg hne]
      simpa using exifSafe_cleaned hne
  | bool b =>
    rw [normalisesSafely_ok (by rw [normaliseExifValue]), ExifValue.Finite]
    simp [PyVal.ExifSafe]
  | int n =>
    rw [normalisesSafely_ok (by rw [normaliseExifValue]), ExifValue.Finite]
    simp [PyVal.ExifSafe]
  | float x =>
    rw [normalisesSafely_ok (by rw [normaliseExifValue]), ExifValue.Finite, ← harith.round6 x]
    simp [PyVal.ExifSafe]
  | rational n d =>
    rw [ExifValue.Finite]
    by_cases hd : d = 0
    · exact iff_of_true (normalisesSafely_none (by rw [normaliseExifValue, if_pos hd])) (.inl hd)
    · cases hfits : fitsFloat n && fitsFloat d with
      | true =>
        rw [normalisesSafely_ok (by rw [normaliseExifValue, if_neg hd, hfits, if_pos rfl])]
        simp [PyVal.ExifSafe, harith.ratio6 n d hd hfits]
      | false =>
        refine iff_of_false ?_ (by simp [hd])
        rintro ⟨kept, hkept, -⟩
        rw [normaliseExifValue, if_neg hd, hfits] at hkept
        cases hkept
  | seq vs =>
    have hlist : (∃ kept, normaliseExifList ext 16 vs = .ok kept ∧ ExifSafeList kept) ↔
        FiniteUpTo 16 vs := normaliseExifList_safe_iff
      (fun v _ => normaliseExifValue_safe_iff harith v) 16
    rw [ExifValue.Finite, ← hlist]
    constructor
    · rintro ⟨result, hresult, hsafe⟩
      rw [normaliseExifValue] at hresult
      obtain ⟨kept, hkept, rfl⟩ := ok_of_map_ok hresult
      refine ⟨kept, hkept, ?_⟩
      cases kept with
      | nil => trivial
      | cons w ws =>
        have hw := hsafe _ rfl
        rw [PyVal.ExifSafe] at hw
        exact hw.2.2
    · rintro ⟨kept, hkept, hsafe⟩
      have hlength := length_normaliseExifList hkept
      cases kept with
      | nil =>
        have hnone : normaliseExifValue ext (.seq vs) = .ok none := by
          rw [normaliseExifValue, hkept]
          rfl
        exact normalisesSafely_none hnone
      | cons w ws =>
        refine ⟨some (.list (w :: ws)), by rw [normaliseExifValue, hkept]; rfl, ?_⟩
        rintro _ ⟨⟩
        rw [PyVal.ExifSafe]
        exact ⟨List.cons_ne_nil _ _, hlength, hsafe⟩
  | other =>
    rw [ExifValue.Finite]
    exact iff_of_true (normalisesSafely_none (by rw [normaliseExifValue])) trivial

end Normalised

namespace Surroundings

theorem arithmetic_small : small.Arithmetic where
  round6 := fun _ => rfl
  ratio6 := fun _ _ _ _ => rfl

/-- An exposure time and a list with a NaN after its sixteenth item. -/
def readings : ExifValue :=
  .seq (.rational 1 60 :: List.replicate 15 (.int 8) ++ [.float .nan])

theorem normaliseExifValue_safe_readings : NormalisesSafely small readings ↔ readings.Finite :=
  normaliseExifValue_safe_iff arithmetic_small readings

/-- A NaN is kept. -/
theorem nan_is_kept : normaliseExifValue small (.float .nan) = .ok (some (.float .nan)) ∧
    ¬ NormalisesSafely small (.float .nan) := by
  have hkept : normaliseExifValue small (.float .nan) = .ok (some (.float .nan)) := by
    rw [normaliseExifValue]
    rfl
  refine ⟨hkept, fun h => ?_⟩
  have hsafe := (normalisesSafely_ok hkept).mp h _ rfl
  rw [PyVal.ExifSafe] at hsafe
  cases hsafe

end Surroundings

end PixelForge
