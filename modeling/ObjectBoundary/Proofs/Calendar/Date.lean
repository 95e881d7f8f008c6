import Mathlib.Tactic.IntervalCases
import ObjectBoundary.Calendar.Date

/-!
# The calendar

The dates follow each other day after day: each month has its days and each year its months. There
is one such enumeration in which day zero is the first of January 1970, and the arithmetic of day
numbers computes it. Whether a date lies before another is then read off their day numbers.
-/

namespace ObjectBoundary.Date

variable {d a b : Date} {date : Int → Date} {n : Int}

/-- A date that stands in the calendar. -/
structure Valid (d : Date) : Prop where
  month_pos : 1 ≤ d.month
  month_le : d.month ≤ 12
  day_pos : 1 ≤ d.day
  day_le : d.day ≤ daysIn d.year d.month

def next (d : Date) : Date :=
  if d.day < daysIn d.year d.month then ⟨d.year, d.month, d.day + 1⟩
  else if d.month < 12 then ⟨d.year, d.month + 1, 1⟩
  else ⟨d.year + 1, 1, 1⟩

/-- The enumeration of the calendar, one date for each day number. -/
structure IsCalendar (date : Int → Date) : Prop where
  epoch : date 0 = ⟨1970, 1, 1⟩
  valid : ∀ n : Int, (date n).Valid
  next : ∀ n : Int, date (n + 1) = (date n).next

theorem isLeap_iff (year : Int) :
    isLeap year = true ↔ year % 4 = 0 ∧ (year % 100 ≠ 0 ∨ year % 400 = 0) := by
  simp [isLeap]

theorem daysIn_pos {month : Nat} (pos : 1 ≤ month) (le : month ≤ 12) (year : Int) :
    1 ≤ daysIn year month := by
  interval_cases month <;> simp only [daysIn] <;> first | decide | split <;> decide

/-! ### Counting from March -/

/-- The number of days from the first of March of the year zero to that of another year. -/
def marchStart (year : Int) : Int := 365 * year + year / 4 - year / 100 + year / 400

theorem dayNumber_eq (d : Date) : d.dayNumber =
    marchStart (if d.month ≤ 2 then d.year - 1 else d.year) + dayOfMarchYear d.month d.day -
      719468 := by
  simp only [dayNumber, marchStart]
  generalize (if d.month ≤ 2 then d.year - 1 else d.year) = year
  omega

/-- From one first of March to the next there are 365 days, and one more when the leap day lies in
between. -/
theorem marchStart_succ (year : Int) :
    marchStart (year + 1) = marchStart year + if isLeap (year + 1) then 366 else 365 := by
  simp only [marchStart]
  split
  next leap =>
    have parts := (isLeap_iff _).mp leap
    omega
  next common =>
    have parts := mt (isLeap_iff (year + 1)).mpr common
    omega

/-! ### Day numbers in the order of the calendar -/

theorem dayNumber_day (year : Int) (month day : Nat) :
    dayNumber ⟨year, month, day⟩ = dayNumber ⟨year, month, 1⟩ + day - 1 := by
  simp only [dayNumber_eq, dayOfMarchYear]
  omega

theorem dayNumber_month {year : Int} {month : Nat} (pos : 1 ≤ month) (lt : month < 12) :
    dayNumber ⟨year, month + 1, 1⟩ = dayNumber ⟨year, month, 1⟩ + daysIn year month := by
  have march := marchStart_succ (year - 1)
  rw [Int.sub_add_cancel] at march
  interval_cases month <;> simp [dayNumber_eq, dayOfMarchYear, daysIn] at march ⊢ <;>
    first | omega | split at march <;> simp_all <;> omega

theorem dayNumber_year (year : Int) :
    dayNumber ⟨year + 1, 1, 1⟩ = dayNumber ⟨year, 12, 1⟩ + daysIn year 12 := by
  simp [dayNumber_eq, dayOfMarchYear, daysIn]
  omega

/-- The first day of a month, with the months counted from January of the year zero. -/
def monthStart (k : Int) : Int := dayNumber ⟨k / 12, (k % 12).toNat + 1, 1⟩

theorem monthStart_succ (k : Int) :
    monthStart (k + 1) = monthStart k + daysIn (k / 12) ((k % 12).toNat + 1) := by
  have bounds : 0 ≤ k % 12 ∧ k % 12 < 12 := by omega
  unfold monthStart
  by_cases last : k % 12 = 11
  · have year : (k + 1) / 12 = k / 12 + 1 := by omega
    have month : (k + 1) % 12 = 0 := by omega
    rw [year, month, last]
    exact dayNumber_year _
  · have year : (k + 1) / 12 = k / 12 := by omega
    have month : ((k + 1) % 12).toNat = (k % 12).toNat + 1 := by omega
    rw [year, month]
    exact dayNumber_month (by omega) (by omega)

theorem monthStart_mono {k l : Int} (le : k ≤ l) : monthStart k ≤ monthStart l := by
  obtain ⟨n, rfl⟩ := Int.le.dest le
  clear le
  induction n with
  | zero => rw [Int.ofNat_zero, Int.add_zero]
  | succ n ih =>
    have step := monthStart_succ (k + n)
    rw [Int.natCast_succ, ← Int.add_assoc]
    omega

/-- The month of a date, counted from January of the year zero. -/
def monthIndex (d : Date) : Int := 12 * d.year + d.month - 1

/-- The index of a month tells its year and its place in the year. -/
theorem Valid.monthIndex_parts (valid : d.Valid) :
    d.monthIndex / 12 = d.year ∧ (d.monthIndex % 12).toNat + 1 = d.month := by
  have pos := valid.month_pos
  have le := valid.month_le
  unfold monthIndex
  omega

theorem Valid.dayNumber (valid : d.Valid) :
    d.dayNumber = monthStart d.monthIndex + d.day - 1 := by
  obtain ⟨year, month⟩ := valid.monthIndex_parts
  rw [monthStart, year, month, ← dayNumber_day]

/-- All days of a month lie before the next month. -/
theorem Valid.dayNumber_lt (valid : d.Valid) : d.dayNumber < monthStart (d.monthIndex + 1) := by
  obtain ⟨year, month⟩ := valid.monthIndex_parts
  have last := valid.day_le
  rw [valid.dayNumber, monthStart_succ, year, month]
  omega

theorem dayNumber_lt_of_before (va : a.Valid) (vb : b.Valid) (before : a.before b = true) :
    a.dayNumber < b.dayNumber := by
  have order : a.monthIndex < b.monthIndex ∨ a.monthIndex = b.monthIndex ∧ a.day < b.day := by
    have := va.month_pos; have := va.month_le; have := vb.month_pos; have := vb.month_le
    simp [Date.before] at before
    unfold monthIndex
    omega
  rcases order with earlier | ⟨same, earlier⟩
  · have reach : monthStart (a.monthIndex + 1) ≤ monthStart b.monthIndex :=
      monthStart_mono (by omega)
    have := va.dayNumber_lt
    have := vb.dayNumber
    have := vb.day_pos
    omega
  · rw [va.dayNumber, vb.dayNumber, same]
    omega

theorem before_trichotomy (a b : Date) : a.before b = true ∨ a = b ∨ b.before a = true := by
  obtain ⟨year, month, day⟩ := a
  obtain ⟨year', month', day'⟩ := b
  simp [Date.before]
  omega

/-- A date lies before another when its day number is less. -/
theorem before_iff (va : a.Valid) (vb : b.Valid) :
    a.before b = true ↔ a.dayNumber < b.dayNumber := by
  refine ⟨dayNumber_lt_of_before va vb, fun lt => ?_⟩
  rcases before_trichotomy a b with before | rfl | after
  · exact before
  · exact absurd lt (Int.lt_irrefl _)
  · exact absurd (dayNumber_lt_of_before vb va after) (by omega)

/-- A date is known by its day number. -/
theorem Valid.eq_of_dayNumber (va : a.Valid) (vb : b.Valid) (same : a.dayNumber = b.dayNumber) :
    a = b := by
  rcases before_trichotomy a b with before | eq | after
  · exact absurd (dayNumber_lt_of_before va vb before) (by omega)
  · exact eq
  · exact absurd (dayNumber_lt_of_before vb va after) (by omega)

theorem Valid.next (valid : d.Valid) : d.next.Valid := by
  obtain ⟨pos, le, day_pos, day_le⟩ := valid
  unfold Date.next
  split
  next inMonth => exact ⟨pos, le, Nat.le_add_left 1 _, inMonth⟩
  split
  next inYear =>
    exact ⟨Nat.le_add_left 1 _, inYear, Nat.le_refl 1, daysIn_pos (Nat.le_add_left 1 _) inYear _⟩
  next =>
    have january : (1 : Nat) ≤ 12 := by decide
    exact ⟨Nat.le_refl 1, january, Nat.le_refl 1, daysIn_pos (Nat.le_refl 1) january _⟩

theorem Valid.dayNumber_next (valid : d.Valid) : d.next.dayNumber = d.dayNumber + 1 := by
  obtain ⟨year, month, day⟩ := d
  obtain ⟨pos, le, day_pos, day_le⟩ := valid
  dsimp only at pos le day_pos day_le
  unfold Date.next
  rw [dayNumber_day year month day]
  dsimp only
  split
  · rw [dayNumber_day]
    omega
  have last : day = daysIn year month := by omega
  split
  · rw [dayNumber_month pos ‹_›, last]
    omega
  · obtain rfl : month = 12 := by omega
    rw [dayNumber_year, last]
    omega

/-! ### From a day number to its date -/

/-- The parts of a day of an era, all counted from March: its century, the four years, the year and
the day in that year. The last of four years has a leap day, which the last year of a century lacks,
but for the last century of the era. -/
structure PartsOfEra (century four year day : Int) : Prop where
  century_bounds : 0 ≤ century ∧ century ≤ 3
  four_bounds : 0 ≤ four ∧ four ≤ 24
  year_bounds : 0 ≤ year ∧ year ≤ 3
  day_nonneg : 0 ≤ day
  day_le : day ≤ 364 ∨ day = 365 ∧ year = 3 ∧ (four ≠ 24 ∨ century = 3)

theorem exists_partsOfEra (nonneg : 0 ≤ n) (lt : n < 146097) :
    ∃ c q z k : Int, PartsOfEra c q z k ∧ n = 36524 * c + 1461 * q + 365 * z + k := by
  obtain ⟨c, century, c_bounds⟩ : ∃ c : Int, (0 ≤ n - 36524 * c ∧
      (n - 36524 * c < 36524 ∨ n - 36524 * c = 36524 ∧ c = 3)) ∧ 0 ≤ c ∧ c ≤ 3 :=
    ⟨min (n / 36524) 3, by omega⟩
  obtain ⟨q, four, q_bounds⟩ : ∃ q : Int, (0 ≤ n - 36524 * c - 1461 * q ∧
      n - 36524 * c - 1461 * q < 1461) ∧ 0 ≤ q ∧ q ≤ 24 :=
    ⟨(n - 36524 * c) / 1461, by omega⟩
  obtain ⟨z, year, z_bounds⟩ : ∃ z : Int, (0 ≤ n - 36524 * c - 1461 * q - 365 * z ∧
      (n - 36524 * c - 1461 * q - 365 * z < 365 ∨
        n - 36524 * c - 1461 * q - 365 * z = 365 ∧ z = 3)) ∧ 0 ≤ z ∧ z ≤ 3 :=
    ⟨min ((n - 36524 * c - 1461 * q) / 365) 3, by omega⟩
  exact ⟨c, q, z, n - 36524 * c - 1461 * q - 365 * z,
    ⟨c_bounds, q_bounds, z_bounds, year.1, by omega⟩, by omega⟩

section

variable {c q z k : Int}

/-- Leaving out the leap days behind a day of an era makes all years equally long. -/
theorem PartsOfEra.yearOfEra (parts : PartsOfEra c q z k)
    (eq : n = 36524 * c + 1461 * q + 365 * z + k) :
    (n - n / 1460 + n / 36524 - n / 146096) / 365 = 100 * c + 4 * q + z := by
  obtain ⟨c_bounds, q_bounds, z_bounds, nonneg, le⟩ := parts
  have centuries : n / 36524 - n / 146096 = c := by
    have behind : 0 ≤ 1461 * q + 365 * z + k ∧ (1461 * q + 365 * z + k < 36524 ∨
        1461 * q + 365 * z + k = 36524 ∧ c = 3) := by omega
    rw [eq, Int.add_assoc, Int.add_assoc, ← Int.add_assoc (1461 * q)]
    generalize 1461 * q + 365 * z + k = rest at behind
    clear eq
    omega
  have fours : n / 1460 = 25 * c + q + (24 * c + q + 365 * z + k) / 1460 := by
    rw [eq]
    omega
  have most : (24 * c + q + 365 * z + k) / 1460 = 0 ∧ k ≤ 364 ∨
      (24 * c + q + 365 * z + k) / 1460 = 1 ∧ 1 ≤ k ∧ k ≤ 365 := by omega
  generalize (24 * c + q + 365 * z + k) / 1460 = extra at fours most
  rcases most with ⟨rfl, le⟩ | ⟨rfl, pos, le⟩ <;> omega

/-- The days in front of a year of an era, and the day in that year. -/
theorem PartsOfEra.dayOfYear (parts : PartsOfEra c q z k)
    (eq : n = 36524 * c + 1461 * q + 365 * z + k) :
    n - (365 * (100 * c + 4 * q + z) + (100 * c + 4 * q + z) / 4 - (100 * c + 4 * q + z) / 100) =
      k := by
  obtain ⟨-, q_bounds, z_bounds, -, -⟩ := parts
  have fours : (100 * c + 4 * q + z) / 4 = 25 * c + q := by omega
  have centuries : (100 * c + 4 * q + z) / 100 = c := by omega
  rw [fours, centuries]
  omega

theorem PartsOfEra.isLeap (parts : PartsOfEra c q z k) (era : Int) :
    k ≤ 364 ∨ k = 365 ∧ isLeap (100 * c + 4 * q + z + era * 400 + 1) = true := by
  obtain ⟨c_bounds, q_bounds, -, -, le⟩ := parts
  rw [isLeap_iff]
  refine le.imp id fun ⟨last, three, leaps⟩ => ⟨last, ?_⟩
  subst three
  omega

end

/-- A day lies in a year that begins in March. Such a year has a last day more before the first of
March of a leap year. -/
theorem exists_ofDayNumber (n : Int) : ∃ year day month : Int,
    n + 719468 = marchStart year + day ∧ 0 ≤ day ∧
      (day ≤ 364 ∨ day = 365 ∧ isLeap (year + 1) = true) ∧ month = (5 * day + 2) / 153 ∧
      ofDayNumber n = ⟨if month < 10 then year else year + 1,
        (if month < 10 then month + 3 else month - 9).toNat,
        (day - (153 * month + 2) / 5 + 1).toNat⟩ := by
  have inEra : 0 ≤ n + 719468 - (n + 719468) / 146097 * 146097 ∧
    n + 719468 - (n + 719468) / 146097 * 146097 < 146097 := by omega
  obtain ⟨c, q, z, k, parts, eq⟩ := exists_partsOfEra inEra.1 inEra.2
  have nonneg := parts.day_nonneg
  have le := parts.day_le
  simp only [ofDayNumber]
  rw [parts.yearOfEra eq, parts.dayOfYear eq]
  generalize (n + 719468) / 146097 = era at *
  refine ⟨100 * c + 4 * q + z + era * 400, k, (5 * k + 2) / 153, ?_, nonneg,
    parts.isLeap era, rfl, ?_⟩
  · have start := parts.dayOfYear eq
    unfold marchStart
    obtain ⟨c_bounds, q_bounds, z_bounds, -, -⟩ := parts
    omega
  · rw [Date.mk.injEq]
    refine ⟨?_, rfl, rfl⟩
    split <;> split <;> omega

theorem valid_ofDayNumber (n : Int) : (ofDayNumber n).Valid := by
  obtain ⟨year, day, month, -, nonneg, last, shifted, eq⟩ := exists_ofDayNumber n
  have range : 0 ≤ month ∧ month ≤ 11 := by omega
  have days : (day - (153 * month + 2) / 5 + 1).toNat ≤
      daysIn (if month < 10 then year else year + 1)
        (if month < 10 then month + 3 else month - 9).toNat := by
    clear eq
    obtain ⟨month_nonneg, month_le⟩ := range
    interval_cases month <;> simp [daysIn] <;> try omega
    rcases last with common | ⟨last, leap⟩
    · split <;> omega
    · rw [if_pos leap]
      omega
  rw [eq]
  refine ⟨?_, ?_, ?_, days⟩
  · dsimp only
    split <;> omega
  · dsimp only
    split <;> omega
  · dsimp only
    omega

theorem dayNumber_ofDayNumber (n : Int) : (ofDayNumber n).dayNumber = n := by
  obtain ⟨year, day, month, number, nonneg, last, shifted, eq⟩ := exists_ofDayNumber n
  have range : 0 ≤ month ∧ month ≤ 11 := by omega
  rw [eq, dayNumber_eq]
  dsimp only
  have march : (if (if month < 10 then month + 3 else month - 9).toNat ≤ 2 then
      (if month < 10 then year else year + 1) - 1 else if month < 10 then year else year + 1) =
      year := by
    split <;> split <;> omega
  have ofYear : dayOfMarchYear (if month < 10 then month + 3 else month - 9).toNat
      (day - (153 * month + 2) / 5 + 1).toNat = day := by
    have shift :
        (((if month < 10 then month + 3 else month - 9).toNat : Int) + 9) % 12 = month := by
      split <;> omega
    rw [dayOfMarchYear, shift]
    omega
  rw [march, ofYear]
  omega

/-! ### The enumeration -/

/-- The date of a day number enumerates the calendar. -/
theorem isCalendar_ofDayNumber : IsCalendar ofDayNumber where
  epoch := by decide
  valid := valid_ofDayNumber
  next n := by
    have valid := valid_ofDayNumber n
    refine (valid_ofDayNumber (n + 1)).eq_of_dayNumber valid.next ?_
    rw [valid.dayNumber_next, dayNumber_ofDayNumber, dayNumber_ofDayNumber]

theorem IsCalendar.dayNumber (calendar : IsCalendar date) (n : Int) : (date n).dayNumber = n := by
  have step (n : Int) : (date (n + 1)).dayNumber = (date n).dayNumber + 1 := by
    rw [calendar.next, (calendar.valid n).dayNumber_next]
  induction n with
  | zero => rw [calendar.epoch]; decide
  | succ n ih => rw [step, ih]
  | pred n ih =>
    have := step (-n - 1)
    rw [Int.sub_add_cancel, ih] at this
    omega

/-- There is no other enumeration of the calendar. -/
theorem IsCalendar.eq_ofDayNumber (calendar : IsCalendar date) : date = ofDayNumber := by
  funext n
  refine (calendar.valid n).eq_of_dayNumber (valid_ofDayNumber n) ?_
  rw [calendar.dayNumber, dayNumber_ofDayNumber]

end ObjectBoundary.Date
