import Mathlib.Data.Bool.AllAny
import Mathlib.Data.String.Basic
import PixelForge.Formats.Calendar
import PixelForge.Formats.Padded
import PixelForge.Shared.Errors

/-! # Timestamps (`shared/timeutil.py`)

`to_iso` over the datetimes of Python: a wall clock reading with microseconds and what
`utcoffset()` says of it. The conversion to UTC goes over the number of microseconds, as
`datetime.__add__` does, and the text is that of `isoformat`.
-/
set_option autoImplicit false

namespace PixelForge

open Calendar Padded

/-! ## Datetimes -/

/-- The microseconds of a day. -/
def dayMicros : ℤ := 86400000000

/-- A `datetime`. The offset is in microseconds, and `none` where `tzinfo` is. -/
structure DateTime where
  year : ℕ
  month : ℕ
  day : ℕ
  hour : ℕ
  minute : ℕ
  second : ℕ
  microsecond : ℕ
  utcoffset : Option ℤ
  date : ValidDate year month day
  year_le : year ≤ 9999
  hour_lt : hour < 24
  minute_lt : minute < 60
  second_lt : second < 60
  microsecond_lt : microsecond < 1000000
  offset_lt : ∀ o ∈ utcoffset, -dayMicros < o ∧ o < dayMicros

namespace DateTime

/-- The wall clock reading, in microseconds from the day before January 1 of year 1. -/
def wall (d : DateTime) : ℤ :=
  ymd2ord d.year d.month d.day * dayMicros +
    (((d.hour * 60 + d.minute) * 60 + d.second) * 1000000 + d.microsecond : ℕ)

/-- The moment that is denoted, on the clock of UTC; a naive datetime is read as UTC. -/
def instant (d : DateTime) : ℤ := d.wall - d.utcoffset.getD 0

/-- The last day of `datetime.max`, `_MAXORDINAL`. -/
def maxOrdinal : ℤ := 3652059

/-- The UTC datetime at this many microseconds, or the `OverflowError` of `datetime.__add__`. -/
def ofMicros (total : ℤ) : Except Exc DateTime :=
  if h : 0 < total / dayMicros ∧ total / dayMicros ≤ maxOrdinal then
    let date := ord2ymd (total / dayMicros).toNat
    let micros := (total % dayMicros).toNat
    .ok
      { year := date.1
        month := date.2.1
        day := date.2.2
        hour := micros / 3600000000
        minute := micros / 60000000 % 60
        second := micros / 1000000 % 60
        microsecond := micros % 1000000
        utcoffset := some 0
        date := (ord2ymd_spec (by omega)).1
        year_le := Calendar.year_le (by omega) (by unfold maxOrdinal at h; omega)
        hour_lt := by
          show (total % 86400000000).toNat / 3600000000 < 24
          omega
        minute_lt := Nat.mod_lt _ (by decide)
        second_lt := Nat.mod_lt _ (by decide)
        microsecond_lt := Nat.mod_lt _ (by decide)
        offset_lt := by
          intro o ho
          rw [Option.mem_some_iff] at ho
          subst ho
          decide }
  else .error (.python (.other "OverflowError") "date value out of range")

/-- `moment.replace(tzinfo=UTC)`. -/
def replaceUtc (d : DateTime) : DateTime :=
  { d with
    utcoffset := some 0
    offset_lt := by
      intro o ho
      rw [Option.mem_some_iff] at ho
      subst ho
      decide }

/-- `moment.astimezone(UTC)` of an aware datetime. -/
def astimezoneUtc (d : DateTime) : Except Exc DateTime := ofMicros (d.wall - d.utcoffset.getD 0)

def formatOffset : Option ℤ → List Char
  | none => []
  | some o =>
    let micros := o.natAbs
    let seconds := micros / 1000000 % 60
    (if o < 0 then '-' else '+') :: zeroPadded 2 (micros / 3600000000) ++ ':' ::
      zeroPadded 2 (micros / 60000000 % 60) ++
        if seconds = 0 ∧ micros % 1000000 = 0 then []
        else ':' :: zeroPadded 2 seconds ++
          if micros % 1000000 = 0 then [] else '.' :: zeroPadded 6 (micros % 1000000)

/-- `isoformat(timespec="milliseconds")`. -/
def isoformat (d : DateTime) : List Char :=
  zeroPadded 4 d.year ++ '-' :: zeroPadded 2 d.month ++ '-' :: zeroPadded 2 d.day ++ 'T' ::
    zeroPadded 2 d.hour ++ ':' :: zeroPadded 2 d.minute ++ ':' :: zeroPadded 2 d.second ++ '.' ::
      zeroPadded 3 (d.microsecond / 1000) ++ formatOffset d.utcoffset

end DateTime

/-- `s.replace(old, new)` for a nonempty `old`; the number counts the characters of an occurrence
that are still to be skipped. -/
def replaceFrom (old new : List Char) : ℕ → List Char → List Char
  | _, [] => []
  | k + 1, _ :: s => replaceFrom old new k s
  | 0, c :: s =>
    if old.isPrefixOf (c :: s) then new ++ replaceFrom old new (old.length - 1) s
    else c :: replaceFrom old new 0 s

def toIso (moment : DateTime) : Except Exc String := do
  let aware := if moment.utcoffset = none then moment.replaceUtc else moment
  let utc ← aware.astimezoneUtc
  return String.ofList (replaceFrom "+00:00".toList "Z".toList 0 utc.isoformat)

/-! ## The text -/

theorem replaceFrom_of_not_mem {old new s : List Char} {c : Char} (rest : List Char)
    (hold : old.head? = some c) (hs : c ∉ s) :
    replaceFrom old new 0 (s ++ rest) = s ++ replaceFrom old new 0 rest := by
  induction s with
  | nil => rfl
  | cons d s ih =>
    rw [List.mem_cons, not_or] at hs
    have hpre : old.isPrefixOf (d :: (s ++ rest)) = false := by
      cases old with
      | nil => exact absurd hold (by simp)
      | cons e old =>
        rw [List.head?_cons, Option.some.injEq] at hold
        subst hold
        simp [List.isPrefixOf, hs.1]
    rw [List.cons_append, replaceFrom, hpre, ih hs.2]
    rfl

/-- The fields of a timestamp: their widths, and the character after each. -/
def stampFields : List (ℕ × Char) :=
  [(4, '-'), (2, '-'), (2, 'T'), (2, ':'), (2, ':'), (2, '.'), (3, 'Z')]

namespace DateTime

/-- The numbers of a timestamp, down to the millisecond. -/
def stamp (d : DateTime) : List ℕ :=
  [d.year, d.month, d.day, d.hour, d.minute, d.second, d.microsecond / 1000]

theorem fit_stamp (d : DateTime) : Fit stampFields d.stamp := by
  have hday := d.date.day_le.trans (daysInMonth_le _ _)
  have hyear := d.year_le
  have hmonth := d.date.month_le
  have hhour := d.hour_lt
  have hminute := d.minute_lt
  have hsecond := d.second_lt
  have hmicro := d.microsecond_lt
  exact .cons ⟨by decide, (by omega : d.year < 10000)⟩ <|
    .cons ⟨by decide, (by omega : d.month < 100)⟩ <|
    .cons ⟨by decide, (by omega : d.day < 100)⟩ <|
    .cons ⟨by decide, (by omega : d.hour < 100)⟩ <|
    .cons ⟨by decide, (by omega : d.minute < 100)⟩ <|
    .cons ⟨by decide, (by omega : d.second < 100)⟩ <|
    .cons ⟨by decide, (by omega : d.microsecond / 1000 < 1000)⟩ .nil

/-- `isoformat` of a UTC datetime, with its offset replaced. -/
theorem replace_isoformat {d : DateTime} (hutc : d.utcoffset = some 0) :
    replaceFrom "+00:00".toList "Z".toList 0 d.isoformat = record stampFields d.stamp := by
  have hplus : ∀ w n, '+' ∉ zeroPadded w n := fun w n h =>
    absurd (isDigit_of_mem_zeroPadded h) (by decide)
  have hiso : d.isoformat =
      (zeroPadded 4 d.year ++ '-' :: zeroPadded 2 d.month ++ '-' :: zeroPadded 2 d.day ++ 'T' ::
        zeroPadded 2 d.hour ++ ':' :: zeroPadded 2 d.minute ++ ':' :: zeroPadded 2 d.second ++
        '.' :: zeroPadded 3 (d.microsecond / 1000)) ++ "+00:00".toList := by
    have hoffset : formatOffset (some 0) = "+00:00".toList := by decide
    rw [isoformat, hutc, hoffset]
  have hzulu : replaceFrom "+00:00".toList "Z".toList 0 "+00:00".toList = ['Z'] := by decide
  rw [hiso, replaceFrom_of_not_mem _ (c := '+') (by decide) (by simp [hplus]), hzulu]
  simp [record, stampFields, stamp]

/-! ## Order -/

/-- The UTC value lies in the years 1 to 9999. -/
def UtcInRange (d : DateTime) : Prop :=
  ymd2ord 1 1 1 * dayMicros ≤ d.instant ∧ d.instant < ymd2ord 10000 1 1 * dayMicros

/-- Hour, minute, second and millisecond of a time of day in microseconds. -/
def clockFields (m : ℕ) : List ℕ :=
  [m / 3600000000, m / 60000000 % 60, m / 1000000 % 60, m % 1000000 / 1000]

theorem clockFields_lt_iff (m n : ℕ) : clockFields m < clockFields n ↔ m / 1000 < n / 1000 := by
  have hparts : ∀ k : ℕ, k / 1000 = (k / 3600000000) * 3600000 + (k / 60000000 % 60) * 60000 +
      (k / 1000000 % 60) * 1000 + k % 1000000 / 1000 := by
    intro k
    omega
  have hsmall : ∀ k : ℕ, k / 60000000 % 60 < 60 ∧ k / 1000000 % 60 < 60 ∧
      k % 1000000 / 1000 < 1000 := by
    intro k
    omega
  have hm := hsmall m
  have hn := hsmall n
  unfold clockFields
  rw [hparts m, hparts n]
  simp only [List.cons_lt_cons_iff, List.not_lt_nil, and_false, or_false]
  generalize m / 3600000000 = a at *
  generalize m / 60000000 % 60 = b at *
  generalize m / 1000000 % 60 = c at *
  generalize m % 1000000 / 1000 = e at *
  generalize n / 3600000000 = a' at *
  generalize n / 60000000 % 60 = b' at *
  generalize n / 1000000 % 60 = c' at *
  generalize n % 1000000 / 1000 = e' at *
  omega

instance (d : DateTime) : Decidable d.UtcInRange := inferInstanceAs (Decidable (_ ∧ _))

theorem ofMicros_ok {t : ℤ} {d : DateTime} (h : ofMicros t = .ok d) :
    0 < t / dayMicros ∧ d.utcoffset = some 0 ∧
      d.stamp = dateFields (t / dayMicros).toNat ++ clockFields (t % dayMicros).toNat := by
  rw [ofMicros] at h
  split at h
  · next hdays =>
    rw [← Except.ok.inj h]
    exact ⟨hdays.1, rfl, rfl⟩
  · exact absurd h (by simp)

theorem ofMicros_of_inRange {d : DateTime} (h : d.UtcInRange) : ∃ u, ofMicros d.instant = .ok u := by
  obtain ⟨hfirst, hlast⟩ := h
  have hone : ymd2ord 1 1 1 = 1 := by decide
  have hend : ymd2ord 10000 1 1 = 3652060 := by decide
  rw [hone] at hfirst
  rw [hend] at hlast
  have hdays : 0 < d.instant / dayMicros ∧ d.instant / dayMicros ≤ maxOrdinal := by
    unfold dayMicros maxOrdinal at *
    omega
  exact ⟨_, dif_pos hdays⟩

/-- **The stamps of two moments sort like their milliseconds.** -/
theorem stamp_lt_iff {t t' : ℤ} {d d' : DateTime} (h : ofMicros t = .ok d)
    (h' : ofMicros t' = .ok d') : d.stamp < d'.stamp ↔ t / 1000 < t' / 1000 := by
  obtain ⟨hpos, -, hstamp⟩ := ofMicros_ok h
  obtain ⟨hpos', -, hstamp'⟩ := ofMicros_ok h'
  have hday : 1 ≤ (t / dayMicros).toNat := by omega
  have hday' : 1 ≤ (t' / dayMicros).toNat := by omega
  have hlen : (dateFields (t / dayMicros).toNat).length =
      (dateFields (t' / dayMicros).toNat).length := rfl
  have hsame := eq_iff_of_lt_iff (dateFields_lt_iff hday hday') (dateFields_lt_iff hday' hday)
  rw [hstamp, hstamp', append_lt_append_iff hlen, dateFields_lt_iff hday hday', hsame,
    clockFields_lt_iff]
  unfold dayMicros at *
  omega

theorem toIso_of_inRange {d : DateTime} (h : d.UtcInRange) :
    ∃ u, ofMicros d.instant = .ok u ∧
      toIso d = .ok (String.ofList (record stampFields u.stamp)) := by
  obtain ⟨u, hu⟩ := ofMicros_of_inRange h
  refine ⟨u, hu, ?_⟩
  have haware : (if d.utcoffset = none then d.replaceUtc else d).astimezoneUtc = .ok u := by
    split
    · next hnaive =>
      rw [instant, hnaive] at hu
      exact hu
    · exact hu
  have htext := replace_isoformat (ofMicros_ok hu).2.1
  rw [toIso, haware, ← htext]
  rfl

end DateTime

theorem toIso_ok {d : DateTime} {s : String} (h : toIso d = .ok s) :
    ∃ u : DateTime, s = String.ofList (record stampFields u.stamp) := by
  rw [toIso] at h
  generalize haware : (if d.utcoffset = none then d.replaceUtc else d).astimezoneUtc = r at h
  cases r with
  | error e => exact absurd h (by simp [bind, Except.bind])
  | ok u =>
    have hutc := (DateTime.ofMicros_ok haware).2.1
    refine ⟨u, ?_⟩
    rw [← DateTime.replace_isoformat hutc]
    exact (Except.ok.inj h).symm

theorem toIso_ascii {d : DateTime} {s : String} (h : toIso d = .ok s) :
    ∀ c ∈ s.toList, c.toNat < 128 := by
  obtain ⟨u, rfl⟩ := toIso_ok h
  intro c hc
  rw [String.toList_ofList] at hc
  rcases mem_record hc with hdigit | hmark
  · simp only [Char.isDigit, Bool.and_eq_true, decide_eq_true_eq] at hdigit
    have hle : c.toNat ≤ 57 := UInt32.le_iff_toNat_le.mp hdigit.2
    omega
  · have hmarks : ∀ d ∈ stampFields.map Prod.snd, d.toNat < 128 :=
      List.all_iff_forall_prop.mp (by decide)
    exact hmarks c hmark

/-- **Timestamps sort like the moments they denote.** -/
theorem toIso_sorts {a b : DateTime} (ha : a.UtcInRange) (hb : b.UtcInRange) :
    ∃ s t, toIso a = .ok s ∧ toIso b = .ok t ∧ s.length = t.length ∧
      s.toList.getLast? = some 'Z' ∧ t.toList.getLast? = some 'Z' ∧
      (a.instant ≤ b.instant → s ≤ t) ∧ (s = t ↔ a.instant / 1000 = b.instant / 1000) := by
  obtain ⟨u, hu, hsu⟩ := DateTime.toIso_of_inRange ha
  obtain ⟨v, hv, hsv⟩ := DateTime.toIso_of_inRange hb
  have hlt := record_lt_iff v.fit_stamp u.fit_stamp
  have heq := record_inj u.fit_stamp v.fit_stamp
  have hstamp := DateTime.stamp_lt_iff hv hu
  have hsame := eq_iff_of_lt_iff (DateTime.stamp_lt_iff hu hv) hstamp
  refine ⟨_, _, hsu, hsv, ?_, ?_, ?_, ?_, ?_⟩
  · rw [String.length_ofList, String.length_ofList, length_record u.fit_stamp,
      length_record v.fit_stamp]
  · rw [String.toList_ofList, getLast?_record u.fit_stamp]
    rfl
  · rw [String.toList_ofList, getLast?_record v.fit_stamp]
    rfl
  · intro hab
    rw [String.le_iff_toList_le, String.toList_ofList, String.toList_ofList, ← not_lt, hlt, hstamp]
    omega
  · rw [String.ofList_inj, heq, hsame]

/-- The last microsecond of a year, naive, and the first of the next, on a clock of India. -/
theorem toIso_sorts_new_year :
    ∃ (eve day : DateTime) (s t : String), eve.utcoffset = none ∧ day.utcoffset = some 19800000000 ∧
      toIso eve = .ok s ∧ toIso day = .ok t ∧ s ≤ t ∧ s ≠ t := by
  let eve : DateTime :=
    { year := 2024, month := 12, day := 31, hour := 23, minute := 59, second := 59,
      microsecond := 999999, utcoffset := none, date := ⟨by decide, by decide, by decide, by decide,
        by decide⟩, year_le := by decide, hour_lt := by decide, minute_lt := by decide,
      second_lt := by decide, microsecond_lt := by decide, offset_lt := by decide }
  let day : DateTime :=
    { year := 2025, month := 1, day := 1, hour := 5, minute := 30, second := 0, microsecond := 0,
      utcoffset := some 19800000000, date := ⟨by decide, by decide, by decide, by decide,
        by decide⟩, year_le := by decide, hour_lt := by decide, minute_lt := by decide,
      second_lt := by decide, microsecond_lt := by decide, offset_lt := by decide }
  obtain ⟨s, t, hs, ht, -, -, -, hle, heq⟩ :=
    toIso_sorts (by decide : eve.UtcInRange) (by decide : day.UtcInRange)
  exact ⟨eve, day, s, t, rfl, rfl, hs, ht, hle (by decide), heq.not.mpr (by decide)⟩

end PixelForge
