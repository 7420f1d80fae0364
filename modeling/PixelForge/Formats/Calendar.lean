import Mathlib.Algebra.Order.Group.Nat
import Mathlib.Data.List.Lex
import Mathlib.Data.Nat.ModEq
import Mathlib.Order.SuccPred.Basic

/-! # Days of the proleptic Gregorian calendar

Dates and their day numbers, with January 1 of year 1 as day 1, by the arithmetic of Python's
`datetime` module (`_ymd2ord`, `_ord2ymd`). Day numbers sort like the dates, and every day number
is that of one date.
-/
set_option autoImplicit false

namespace PixelForge.Calendar

/-! ## Years and months -/

def isLeap (year : ℕ) : Bool := year % 4 == 0 && (year % 100 != 0 || year % 400 == 0)

def yearLength (leap : Bool) : ℕ := if leap then 366 else 365

def daysBeforeYear (year : ℕ) : ℕ :=
  (year - 1) * 365 + (year - 1) / 4 - (year - 1) / 100 + (year - 1) / 400

def daysInMonth (leap : Bool) : ℕ → ℕ
  | 2 => if leap then 29 else 28
  | 4 | 6 | 9 | 11 => 30
  | _ => 31

theorem daysInMonth_le (leap : Bool) (month : ℕ) : daysInMonth leap month ≤ 31 := by
  unfold daysInMonth
  cases leap <;> split <;> decide

def daysBeforeMonth (leap : Bool) (month : ℕ) : ℕ :=
  ((List.range' 1 (month - 1)).map (daysInMonth leap)).sum

/-- What `_check_date_fields` accepts, the largest year apart. -/
structure ValidDate (year month day : ℕ) : Prop where
  year_pos : 1 ≤ year
  month_pos : 1 ≤ month
  month_le : month ≤ 12
  day_pos : 1 ≤ day
  day_le : day ≤ daysInMonth (isLeap year) month

def ymd2ord (year month day : ℕ) : ℕ :=
  daysBeforeYear year + daysBeforeMonth (isLeap year) month + day

theorem daysBeforeYear_succ (n : ℕ) :
    daysBeforeYear (n + 2) = daysBeforeYear (n + 1) + yearLength (isLeap (n + 1)) := by
  have h4 : (n + 1) / 4 = n / 4 + if (n + 1) % 4 = 0 then 1 else 0 := by
    split <;> omega
  have h100 : (n + 1) / 100 = n / 100 + if (n + 1) % 100 = 0 then 1 else 0 := by
    split <;> omega
  have h400 : (n + 1) / 400 = n / 400 + if (n + 1) % 400 = 0 then 1 else 0 := by
    split <;> omega
  have hle : n / 100 ≤ n / 4 := by omega
  have hdays : daysBeforeYear (n + 2) =
      (n + 1) * 365 + (n + 1) / 4 - (n + 1) / 100 + (n + 1) / 400 := rfl
  have hdays' : daysBeforeYear (n + 1) = n * 365 + n / 4 - n / 100 + n / 400 := rfl
  rw [hdays, hdays', h4, h100, h400]
  generalize n / 4 = q4 at hle
  generalize n / 100 = q100 at hle
  generalize n / 400 = q400
  unfold isLeap yearLength
  by_cases h : (n + 1) % 4 = 0
  · by_cases h' : (n + 1) % 100 = 0
    · by_cases h'' : (n + 1) % 400 = 0
      · simp [h, h', h'']
        omega
      · simp [h, h', h'']
        omega
    · have h'' : (n + 1) % 400 ≠ 0 := by omega
      simp [h, h', h'']
      omega
  · have h' : (n + 1) % 100 ≠ 0 := by omega
    have h'' : (n + 1) % 400 ≠ 0 := by omega
    simp [h, h', h'']
    omega

theorem daysBeforeYear_lt {year year' : ℕ} (h : 1 ≤ year) (hlt : year < year') :
    daysBeforeYear year + yearLength (isLeap year) ≤ daysBeforeYear year' := by
  obtain ⟨n, rfl⟩ := Nat.exists_eq_add_of_le' h
  induction year', hlt using Nat.le_induction with
  | base => exact (daysBeforeYear_succ n).ge
  | succ y hy ih =>
    obtain ⟨k, rfl⟩ := Nat.exists_eq_add_of_le' (by omega : 1 ≤ y)
    have hsucc : daysBeforeYear (k + 1 + 1) =
        daysBeforeYear (k + 1) + yearLength (isLeap (k + 1)) := daysBeforeYear_succ k
    omega

/-- A month ends before the next ones begin, and the year with December. -/
theorem daysBeforeMonth_lt (leap : Bool) : ∀ m < 13, ∀ m' < 13, m < m' → 1 ≤ m →
    daysBeforeMonth leap m + daysInMonth leap m ≤ daysBeforeMonth leap m' := by
  cases leap <;> decide

theorem daysBeforeMonth_le (leap : Bool) : ∀ m < 13, 1 ≤ m →
    daysBeforeMonth leap m + daysInMonth leap m ≤ yearLength leap := by
  cases leap <;> decide

/-- **Later dates have larger day numbers.** -/
theorem ymd2ord_lt {y m d y' m' d' : ℕ} (h : ValidDate y m d) (h' : ValidDate y' m' d')
    (hlt : [y, m, d] < [y', m', d']) : ymd2ord y m d < ymd2ord y' m' d' := by
  obtain ⟨hy, hm, hm12, hd, hday⟩ := h
  obtain ⟨-, -, hm12', hd', -⟩ := h'
  simp only [List.cons_lt_cons_iff, List.not_lt_nil, and_false, or_false] at hlt
  unfold ymd2ord
  rcases hlt with hyear | ⟨rfl, hmonth | ⟨rfl, hlast⟩⟩
  · have hstart := daysBeforeYear_lt hy hyear
    have hend := daysBeforeMonth_le (isLeap y) m (by omega) hm
    omega
  · have hstart := daysBeforeMonth_lt (isLeap y) m (by omega) m' (by omega) hmonth hm
    omega
  · omega

/-! ## From the day number back to the date -/

/-- The month of `_ord2ymd`, for the day `n` of the year counted from 0: an estimate, lowered by
one where it is too large. -/
def monthOf (leap : Bool) (n : ℕ) : ℕ :=
  let month := (n + 50) / 32
  if daysBeforeMonth leap month > n then month - 1 else month

def ord2ymd (ordinal : ℕ) : ℕ × ℕ × ℕ :=
  let n := ordinal - 1
  let n400 := n / 146097
  let n := n % 146097
  let n100 := n / 36524
  let n := n % 36524
  let n4 := n / 1461
  let n := n % 1461
  let n1 := n / 365
  let n := n % 365
  let year := n400 * 400 + 1 + (n100 * 100 + n4 * 4 + n1)
  if n1 = 4 ∨ n100 = 4 then (year - 1, 12, 31)
  else
    let leapyear := n1 == 3 && (n4 != 24 || n100 == 3)
    let month := monthOf leapyear n
    (year, month, n - daysBeforeMonth leapyear month + 1)

theorem daysBeforeYear_parts (a : ℕ) {b c d : ℕ} (hb : b < 4) (hc : c < 25) (hd : d < 4) :
    daysBeforeYear (a * 400 + 1 + (b * 100 + c * 4 + d)) =
      146097 * a + 36524 * b + 1461 * c + 365 * d := by
  unfold daysBeforeYear
  omega

theorem isLeap_parts (a : ℕ) {b c d : ℕ} (hb : b < 4) (hc : c < 25) (hd : d < 4) :
    isLeap (a * 400 + 1 + (b * 100 + c * 4 + d)) = (d == 3 && (c != 24 || b == 3)) := by
  rw [Bool.eq_iff_iff]
  simp only [isLeap, Bool.and_eq_true, Bool.or_eq_true, beq_iff_eq, bne_iff_ne]
  omega

theorem monthOf_spec (leap : Bool) : ∀ n < 365, 1 ≤ monthOf leap n ∧ monthOf leap n ≤ 12 ∧
    daysBeforeMonth leap (monthOf leap n) ≤ n ∧
      n < daysBeforeMonth leap (monthOf leap n) + daysInMonth leap (monthOf leap n) := by
  cases leap <;> decide +kernel

/-- A date given by the parts of its year is valid on the days of its month, and this is its
number. -/
theorem ymd2ord_parts (a : ℕ) {b c d m n : ℕ} (hb : b < 4) (hc : c < 25) (hd : d < 4)
    {leap : Bool} (hleap : (d == 3 && (c != 24 || b == 3)) = leap) (hpos : 1 ≤ m) (hle : m ≤ 12)
    (hday : 1 ≤ n) (hlast : n ≤ daysInMonth leap m) :
    ValidDate (a * 400 + 1 + (b * 100 + c * 4 + d)) m n ∧
      ymd2ord (a * 400 + 1 + (b * 100 + c * 4 + d)) m n =
        146097 * a + 36524 * b + 1461 * c + 365 * d + daysBeforeMonth leap m + n := by
  have hyear := isLeap_parts a hb hc hd
  rw [hleap] at hyear
  refine ⟨⟨by omega, hpos, hle, hday, by rw [hyear]; exact hlast⟩, ?_⟩
  rw [ymd2ord, daysBeforeYear_parts a hb hc hd, hyear]

/-- **Every day number is that of the date it is turned into.** -/
theorem ord2ymd_spec {n : ℕ} (hn : 1 ≤ n) :
    ValidDate (ord2ymd n).1 (ord2ymd n).2.1 (ord2ymd n).2.2 ∧
      ymd2ord (ord2ymd n).1 (ord2ymd n).2.1 (ord2ymd n).2.2 = n := by
  obtain ⟨k, rfl⟩ := Nat.exists_eq_add_of_le' hn
  simp only [ord2ymd, Nat.add_sub_cancel]
  generalize ha : k / 146097 = a
  generalize hr : k % 146097 = r
  generalize hb : r / 36524 = b
  generalize hs : r % 36524 = s
  generalize hc : s / 1461 = c
  generalize ht : s % 1461 = t
  generalize he : t / 365 = e
  generalize hu : t % 365 = u
  have hk : k = 146097 * a + 36524 * b + 1461 * c + 365 * e + u := by omega
  split
  · next hlast =>
    -- the last day of a leap year: of four years, or of four centuries
    rcases hlast with rfl | rfl
    · have hb4 : b < 4 := by omega
      have hc24 : c < 24 := by omega
      have hleap : ((3 : ℕ) == 3 && (c != 24 || b == 3)) = true := by
        have hne : c ≠ 24 := by omega
        simp [hne]
      have hyear : a * 400 + 1 + (b * 100 + c * 4 + 4) - 1 =
          a * 400 + 1 + (b * 100 + c * 4 + 3) := by omega
      obtain ⟨hvalid, hord⟩ := ymd2ord_parts a hb4 (by omega) (by decide) hleap (m := 12) (n := 31)
        (by decide) (by decide) (by decide) (by decide)
      have hdec : daysBeforeMonth true 12 = 335 := rfl
      rw [hyear]
      exact ⟨hvalid, hord.trans (by omega)⟩
    · have hc0 : c = 0 := by omega
      have he0 : e = 0 := by omega
      have hyear : a * 400 + 1 + (4 * 100 + c * 4 + e) - 1 =
          a * 400 + 1 + (3 * 100 + 24 * 4 + 3) := by omega
      have hleap : ((3 : ℕ) == 3 && ((24 : ℕ) != 24 || (3 : ℕ) == 3)) = true := rfl
      obtain ⟨hvalid, hord⟩ := ymd2ord_parts a (by decide) (by decide) (by decide) hleap (m := 12)
        (n := 31) (by decide) (by decide) (by decide) (by decide)
      have hdec : daysBeforeMonth true 12 = 335 := rfl
      rw [hyear]
      exact ⟨hvalid, hord.trans (by omega)⟩
  · next hlast =>
    have hb4 : b < 4 := by omega
    have he4 : e < 4 := by omega
    generalize hleap : (e == 3 && (c != 24 || b == 3)) = leap
    obtain ⟨hpos, hle, hbefore, hafter⟩ := monthOf_spec leap u (by omega)
    obtain ⟨hvalid, hord⟩ := ymd2ord_parts a hb4 (by omega) he4 hleap hpos hle
      (n := u - daysBeforeMonth leap (monthOf leap u) + 1) (by omega) (by omega)
    exact ⟨hvalid, hord.trans (by omega)⟩

/-- Year, month and day. -/
def dateFields (n : ℕ) : List ℕ := [(ord2ymd n).1, (ord2ymd n).2.1, (ord2ymd n).2.2]

/-- **Day numbers sort like their dates.** -/
theorem dateFields_lt_iff {n n' : ℕ} (hn : 1 ≤ n) (hn' : 1 ≤ n') :
    dateFields n < dateFields n' ↔ n < n' := by
  obtain ⟨hvalid, hord⟩ := ord2ymd_spec hn
  obtain ⟨hvalid', hord'⟩ := ord2ymd_spec hn'
  constructor
  · intro hlt
    rw [← hord, ← hord']
    exact ymd2ord_lt hvalid hvalid' hlt
  · intro hlt
    refine lt_of_not_ge fun hge => ?_
    rcases hge.lt_or_eq with hgt | heq
    · have hback := ymd2ord_lt hvalid' hvalid hgt
      rw [hord, hord'] at hback
      omega
    · simp only [dateFields, List.cons.injEq, and_true] at heq
      rw [heq.1, heq.2.1, heq.2.2, hord] at hord'
      omega

/-- The last day of year 9999 is day 3652059. -/
theorem year_le {n : ℕ} (hn : 1 ≤ n) (hmax : n ≤ 3652059) : (ord2ymd n).1 ≤ 9999 := by
  obtain ⟨hvalid, hord⟩ := ord2ymd_spec hn
  refine not_lt.mp fun hlate => ?_
  have hyears := daysBeforeYear_lt (by decide) hlate
  have hstart : daysBeforeYear 9999 + yearLength (isLeap 9999) = 3652059 := by decide
  have hday := hvalid.day_pos
  unfold ymd2ord at hord
  omega

end PixelForge.Calendar
