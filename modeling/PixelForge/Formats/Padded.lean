import Mathlib.Data.Char
import Mathlib.Data.List.Lex
import Mathlib.Data.Nat.Notation
import Mathlib.Order.Defs.LinearOrder
import Mathlib.Tactic.IntervalCases

/-! # Zero-padded numerals sort like their numbers

`zeroPadded w n` is the decimal numeral of `n` filled with zeros to `w` characters. Between numbers
that fit, the lexicographic order of the texts is the order of the numbers, and a `record` of such
fields, each with a character after it, sorts like the list of its numbers.
-/
set_option autoImplicit false

namespace PixelForge.Padded

/-! ## Blocks of one length -/

theorem append_lt_append_iff {α : Type} [LinearOrder α] {a b x y : List α}
    (h : a.length = b.length) : a ++ x < b ++ y ↔ a < b ∨ (a = b ∧ x < y) := by
  induction a generalizing b with
  | nil =>
    have hb : b = [] := List.length_eq_zero_iff.mp h.symm
    simp [hb]
  | cons c a ih =>
    cases b with
    | nil => exact absurd h (Nat.succ_ne_zero _)
    | cons d b =>
      have htail := ih (Nat.succ.inj h)
      simp only [List.cons_append, List.cons_lt_cons_iff, htail, List.cons.injEq]
      constructor
      · rintro (hcd | ⟨hcd, hab | ⟨hab, hxy⟩⟩)
        · exact .inl (.inl hcd)
        · exact .inl (.inr ⟨hcd, hab⟩)
        · exact .inr ⟨⟨hcd, hab⟩, hxy⟩
      · rintro ((hcd | ⟨hcd, hab⟩) | ⟨⟨hcd, hab⟩, hxy⟩)
        · exact .inl hcd
        · exact .inr ⟨hcd, .inl hab⟩
        · exact .inr ⟨hcd, .inr ⟨hab, hxy⟩⟩

/-- Where the order of two texts is the order of what they stand for, so is their equality. -/
theorem eq_iff_of_lt_iff {α β : Type} [LinearOrder α] [LinearOrder β] {x y : α} {a b : β}
    (h : x < y ↔ a < b) (h' : y < x ↔ b < a) : x = y ↔ a = b := by
  constructor
  · intro hxy
    refine le_antisymm (not_lt.mp fun hba => ?_) (not_lt.mp fun hab => ?_)
    · exact absurd (h'.mpr hba) (hxy ▸ lt_irrefl x)
    · exact absurd (h.mpr hab) (hxy ▸ lt_irrefl x)
  · intro hab
    refine le_antisymm (not_lt.mp fun hyx => ?_) (not_lt.mp fun hxy => ?_)
    · exact absurd (h'.mp hyx) (hab ▸ lt_irrefl a)
    · exact absurd (h.mp hxy) (hab ▸ lt_irrefl a)

/-! ## One numeral -/

/-- `"%0wd" % n`. -/
def zeroPadded (w n : ℕ) : List Char := (Nat.toDigits 10 n).leftpad w '0'

theorem length_zeroPadded {w n : ℕ} (hw : 0 < w) (hn : n < 10 ^ w) : (zeroPadded w n).length = w := by
  have hlen := (Nat.length_toDigits_le_iff (n := n) (by decide : 1 < 10) hw).mpr hn
  rw [zeroPadded, List.length_leftpad, max_eq_left hlen]

theorem isDigit_of_mem_zeroPadded {w n : ℕ} {c : Char} (h : c ∈ zeroPadded w n) :
    c.isDigit = true := by
  rw [zeroPadded, List.leftpad, List.mem_append] at h
  rcases h with hzero | hdigit
  · rw [List.eq_of_mem_replicate hzero]
    decide
  · exact Nat.isDigit_of_mem_toDigits (by decide) (by decide) hdigit

theorem zeroPadded_one {n : ℕ} (hn : n < 10) : zeroPadded 1 n = [n.digitChar] := by
  rw [zeroPadded, Nat.toDigits_of_lt_base hn]
  rfl

/-- The last digit stands last. -/
theorem zeroPadded_succ {w : ℕ} (hw : 0 < w) (n : ℕ) :
    zeroPadded (w + 1) n = zeroPadded w (n / 10) ++ [(n % 10).digitChar] := by
  simp only [zeroPadded, List.leftpad]
  rcases Nat.lt_or_ge n 10 with hn | hn
  · rw [Nat.toDigits_of_lt_base hn, Nat.div_eq_of_lt hn, Nat.mod_eq_of_lt hn, Nat.toDigits_zero]
    have hrep : List.replicate (w - 1) '0' ++ ['0'] = List.replicate w '0' := by
      rw [← List.replicate_succ', Nat.sub_add_cancel hw]
    simp [hrep]
  · rw [Nat.toDigits_of_base_le (by decide) hn, List.length_append, List.length_singleton,
      Nat.add_sub_add_right, List.append_assoc]

theorem digitChar_lt_iff {c d : ℕ} (hc : c < 10) (hd : d < 10) :
    c.digitChar < d.digitChar ↔ c < d := by
  interval_cases c <;> interval_cases d <;> decide

/-- **Numerals of one width sort like their numbers.** -/
theorem zeroPadded_lt_iff {w m n : ℕ} (hw : 0 < w) (hm : m < 10 ^ w) (hn : n < 10 ^ w) :
    zeroPadded w m < zeroPadded w n ↔ m < n := by
  induction w, hw using Nat.le_induction generalizing m n with
  | base =>
    rw [Nat.pow_one] at hm hn
    rw [zeroPadded_one hm, zeroPadded_one hn, List.cons_lt_cons_iff]
    simp [digitChar_lt_iff hm hn]
  | succ w hw ih =>
    have hm' : m / 10 < 10 ^ w := Nat.div_lt_of_lt_mul (by rw [Nat.pow_succ] at hm; omega)
    have hn' : n / 10 < 10 ^ w := Nat.div_lt_of_lt_mul (by rw [Nat.pow_succ] at hn; omega)
    have hlen : (zeroPadded w (m / 10)).length = (zeroPadded w (n / 10)).length := by
      rw [length_zeroPadded hw hm', length_zeroPadded hw hn']
    have hsame := eq_iff_of_lt_iff (ih hm' hn') (ih hn' hm')
    rw [zeroPadded_succ hw, zeroPadded_succ hw, append_lt_append_iff hlen, ih hm' hn', hsame,
      List.cons_lt_cons_iff, digitChar_lt_iff (by omega) (by omega)]
    simp only [List.not_lt_nil, and_false, or_false]
    omega

/-! ## Records of numerals -/

/-- The fields at their widths, each followed by its character. -/
def record : List (ℕ × Char) → List ℕ → List Char
  | (w, c) :: ws, n :: ns => zeroPadded w n ++ c :: record ws ns
  | _, _ => []

/-- Each number fits its field. -/
def Fit (ws : List (ℕ × Char)) (ns : List ℕ) : Prop :=
  List.Forall₂ (fun w n => 0 < w.1 ∧ n < 10 ^ w.1) ws ns

theorem length_record {ws : List (ℕ × Char)} {ns : List ℕ} (h : Fit ws ns) :
    (record ws ns).length = (ws.map fun w => w.1 + 1).sum := by
  induction h with
  | nil => rfl
  | cons hfit _ ih =>
    rw [record, List.length_append, length_zeroPadded hfit.1 hfit.2, List.length_cons, ih]
    simp only [List.map_cons, List.sum_cons]
    omega

theorem mem_record {ws : List (ℕ × Char)} {ns : List ℕ} {c : Char} (h : c ∈ record ws ns) :
    c.isDigit = true ∨ c ∈ ws.map Prod.snd := by
  induction ws generalizing ns with
  | nil => exact absurd h List.not_mem_nil
  | cons w ws ih =>
    cases ns with
    | nil => exact absurd h List.not_mem_nil
    | cons n ns =>
      rw [record, List.mem_append, List.mem_cons] at h
      rcases h with hnum | rfl | hrest
      · exact .inl (isDigit_of_mem_zeroPadded hnum)
      · exact .inr List.mem_cons_self
      · exact (ih hrest).imp_right (List.mem_cons_of_mem _)

theorem getLast?_record {ws : List (ℕ × Char)} {ns : List ℕ} (h : Fit ws ns) :
    (record ws ns).getLast? = ws.getLast?.map Prod.snd := by
  induction h with
  | nil => rfl
  | @cons w n ws ns hfit hrest ih =>
    rw [record, List.getLast?_append, List.getLast?_cons, ih, List.getLast?_cons]
    cases ws.getLast? <;> rfl

/-- **Records sort like the lists of their numbers.** -/
theorem record_lt_iff {ws : List (ℕ × Char)} {ms ns : List ℕ} (hm : Fit ws ms) (hn : Fit ws ns) :
    record ws ms < record ws ns ↔ ms < ns := by
  induction hm generalizing ns with
  | nil =>
    cases hn
    simp [record]
  | @cons w m ws ms hm _ ih =>
    cases hn with
    | @cons _ n _ ns hn hns =>
      have hlen : (zeroPadded w.1 m).length = (zeroPadded w.1 n).length := by
        rw [length_zeroPadded hm.1 hm.2, length_zeroPadded hn.1 hn.2]
      have hlt := zeroPadded_lt_iff hm.1 hm.2 hn.2
      have hsame := eq_iff_of_lt_iff hlt (zeroPadded_lt_iff hm.1 hn.2 hm.2)
      rw [record, record, append_lt_append_iff hlen, List.cons_lt_cons_self, ih hns, hlt, hsame,
        List.cons_lt_cons_iff]

theorem record_inj {ws : List (ℕ × Char)} {ms ns : List ℕ} (hm : Fit ws ms) (hn : Fit ws ns) :
    record ws ms = record ws ns ↔ ms = ns :=
  eq_iff_of_lt_iff (record_lt_iff hm hn) (record_lt_iff hn hm)

end PixelForge.Padded
