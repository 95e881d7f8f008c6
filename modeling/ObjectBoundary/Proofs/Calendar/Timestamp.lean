import Mathlib.Data.Nat.Digits.Defs
import ObjectBoundary.Calendar.Parse
import ObjectBoundary.Calendar.Timestamp
import ObjectBoundary.Proofs.Calendar.Date
import ObjectBoundary.Proofs.Json.Lexemes

/-!
# Timestamps as dates

A timestamp is read back as the date that it was written from. The form with hyphens takes its date
and stops at the time of day; the form of timestamps then takes all of it.
-/

namespace ObjectBoundary

/-! ### Numbers in fields of a fixed width -/

namespace Text

/-- The digits of a number in a field of a fixed width. -/
def field (width n : Nat) : List Char := padLeft width (Nat.toDigits 10 n)

variable {width n : Nat}

theorem toList_paddedDecimal (width n : Nat) : (paddedDecimal width n).toList = field width n :=
  String.toList_ofList

theorem length_field (pos : 0 < width) (lt : n < 10 ^ width) : (field width n).length = width := by
  have fits := Nat.toDigits_length 10 n width pos lt
  simp only [field, padLeft, List.length_append, List.length_replicate]
  omega

theorem isDigit_of_mem_field : ∀ c ∈ field width n, c.isDigit = true := by
  intro c member
  rcases List.mem_append.mp member with zero | digit
  · rw [List.eq_of_mem_replicate zero]
    rfl
  · exact Json.isDigit_toDigits n c digit

theorem field_ne_nil (width n : Nat) : field width n ≠ [] :=
  List.append_ne_nil_of_right_ne_nil _ Nat.toDigits_ne_nil

theorem decimal?_field (width n : Nat) : decimal? (field width n) = some n := by
  have zeros (k : Nat) (cs : List Char) :
      Nat.ofDigitChars 10 (List.replicate k '0' ++ cs) 0 = Nat.ofDigitChars 10 cs 0 := by
    induction k with
    | zero => rfl
    | succ k ih => rw [List.replicate_succ, List.cons_append, Nat.ofDigitChars_cons]; exact ih
  rw [Json.decimal?_of_isDigit (field_ne_nil width n) isDigit_of_mem_field, field, padLeft, zeros,
    Nat.ofDigitChars_ten_toDigits]

theorem isBlank_of_isDigit {c : Char} (digit : c.isDigit = true) : isBlank c = false := by
  have range : 48 ≤ c.toNat ∧ c.toNat ≤ 57 := by
    simpa [Char.isDigit, UInt32.le_iff_toNat_le] using digit
  simp only [isBlank, Bool.or_eq_false_iff, Bool.and_eq_false_iff, decide_eq_false_iff_not,
    beq_eq_false_iff_ne]
  omega

theorem exists_field_eq_cons (width n : Nat) :
    ∃ c cs, field width n = c :: cs ∧ c.isDigit = true := by
  obtain ⟨c, cs, eq⟩ := List.exists_cons_of_ne_nil (field_ne_nil width n)
  exact ⟨c, cs, eq, isDigit_of_mem_field c (eq ▸ List.mem_cons_self)⟩

end Text

namespace Date

open Text

variable {width least n : Nat} {rest : List Char}

/-- A field is read to its end and no further. -/
theorem number?_field (pos : 0 < width) (le : least ≤ width) (lt : n < 10 ^ width) :
    number? least width (field width n ++ rest) = some (n, rest) := by
  have length := length_field pos lt
  have all : (field width n).takeWhile Char.isDigit = field width n :=
    List.takeWhile_eq_self_iff.mpr isDigit_of_mem_field
  have value := decimal?_field width n
  rw [decimal?, if_neg (by simp [field_ne_nil])] at value
  unfold number?
  rw [List.take_append_of_le_length (by omega), List.take_of_length_le (by omega), all]
  simp only [length, value, Nat.not_lt.mpr le, if_false]
  rw [List.drop_left' length]

theorem dropWhile_isBlank_field : (field width n ++ rest).dropWhile isBlank =
    field width n ++ rest := by
  obtain ⟨c, cs, eq, digit⟩ := exists_field_eq_cons width n
  rw [eq, List.cons_append, List.dropWhile_cons_of_neg (by simp [isBlank_of_isDigit digit])]

/-- A year of four digits is read without a sign. -/
theorem year?_field (lt : n < 10 ^ 4) : year? (field 4 n ++ rest) = some ((n : Int), rest) := by
  have read : number? 1 4 (field 4 n ++ rest) = some (n, rest) :=
    number?_field (by decide) (by decide) lt
  obtain ⟨c, cs, eq, digit⟩ := exists_field_eq_cons 4 n
  rw [eq, List.cons_append] at read ⊢
  unfold year?
  split
  next minus => cases minus; cases digit
  next plus => cases plus; cases digit
  next => rw [read]; rfl

/-! ### The two forms -/

/-- The spelling of a date with a year of four digits, and what stands behind it. -/
def spelled (d : Date) (rest : List Char) : List Char :=
  field 4 d.year.toNat ++ '-' :: (field 2 d.month ++ '-' :: (field 2 d.day ++ rest))

variable {d : Date}

theorem Valid.day_lt (valid : d.Valid) : d.month < 10 ^ 2 ∧ d.day < 10 ^ 2 := by
  have month := valid.month_le
  have most : daysIn d.year d.month ≤ 31 := by
    unfold daysIn
    split <;> first | decide | split <;> decide
  have day := valid.day_le
  omega

theorem Valid.make?_eq (valid : d.Valid) (first : firstYear ≤ d.year) (last : d.year ≤ lastYear) :
    make? d.year d.month d.day = some d :=
  if_pos ⟨first, last, valid.day_pos, valid.day_le⟩

/-- The form with hyphens reads a date and lets nothing follow. -/
theorem ofHyphenated?_spelled (valid : d.Valid) (nonneg : 0 ≤ d.year) (le : d.year ≤ 9999) :
    ofHyphenated? (d.spelled rest) = if rest.isEmpty then some d else none := by
  have year : d.year.toNat < 10 ^ 4 := by omega
  have small := valid.day_lt
  have make : make? ((d.year.toNat : Nat) : Int) d.month d.day = some d := by
    rw [Int.toNat_of_nonneg nonneg]
    exact valid.make?_eq (by unfold firstYear; omega) (by unfold lastYear; omega)
  unfold ofHyphenated? spelled
  simp only [dropWhile_isBlank_field, year?_field year, after?, if_true, Option.bind_eq_bind,
    Option.bind_some, number?_field (by decide : 0 < 2) (by decide : 1 ≤ 2) small.1,
    number?_field (by decide : 0 < 2) (by decide : 1 ≤ 2) small.2, make]

/-- The form of timestamps reads a date, a time of day and the letter of UTC. -/
theorem ofTimestamp?_spelled (valid : d.Valid) (nonneg : 0 ≤ d.year) (le : d.year ≤ 9999)
    {hour minute second : Nat} (hour_le : hour ≤ 23) (minute_le : minute ≤ 59)
    (second_le : second ≤ 60) :
    ofTimestamp? (d.spelled ('T' :: (field 2 hour ++ ':' :: (field 2 minute ++
      ':' :: (field 2 second ++ ['Z']))))) = some d := by
  have year : d.year.toNat < 10 ^ 4 := by omega
  have small := valid.day_lt
  have make : make? ((d.year.toNat : Nat) : Int) d.month d.day = some d := by
    rw [Int.toNat_of_nonneg nonneg]
    exact valid.make?_eq (by unfold firstYear; omega) (by unfold lastYear; omega)
  have two {n : Nat} {rest : List Char} (lt : n < 10 ^ 2) :
      number? 2 2 (field 2 n ++ rest) = some (n, rest) :=
    number?_field (by decide) (Nat.le_refl 2) lt
  have offset : isOffset ['Z'] = true := rfl
  refine Option.bind_eq_some_iff.mpr ⟨_, number?_field (by decide) (Nat.le_refl 4) year, ?_⟩
  refine Option.bind_eq_some_iff.mpr ⟨_, rfl, ?_⟩
  refine Option.bind_eq_some_iff.mpr ⟨_, two small.1, ?_⟩
  refine Option.bind_eq_some_iff.mpr ⟨_, rfl, ?_⟩
  refine Option.bind_eq_some_iff.mpr ⟨_, two small.2, ?_⟩
  refine Option.bind_eq_some_iff.mpr ⟨_, two (show hour < 10 ^ 2 by omega), ?_⟩
  refine Option.bind_eq_some_iff.mpr ⟨_, rfl, ?_⟩
  refine Option.bind_eq_some_iff.mpr ⟨_, two (show minute < 10 ^ 2 by omega), ?_⟩
  refine Option.bind_eq_some_iff.mpr ⟨_, rfl, ?_⟩
  refine Option.bind_eq_some_iff.mpr ⟨_, two (show second < 10 ^ 2 by omega), ?_⟩
  refine Option.bind_eq_some_iff.mpr ⟨_, rfl, ?_⟩
  exact (if_pos ⟨hour_le, minute_le, second_le, offset⟩).trans make

end Date

namespace Timestamp

open Date Text

variable {n : Int}

theorem toList_text (nonneg : 0 ≤ (date n).year) (le : (date n).year ≤ 9999) :
    (text n).toList = (date n).spelled ('T' :: (field 2 ((n % 86400).toNat / 3600) ++
      ':' :: (field 2 ((n % 86400).toNat / 60 % 60) ++
        ':' :: (field 2 ((n % 86400).toNat % 60) ++ ['Z'])))) := by
  simp [text, Date.text, yearText, nonneg, le, timeText, spelled, toList_paddedDecimal]

theorem parse?_text (nonneg : 0 ≤ (date n).year) (le : (date n).year ≤ 9999) :
    parse? (text n) = some (date n) := by
  have valid : (date n).Valid := valid_ofDayNumber _
  rw [parse?, toList_text nonneg le, ofHyphenated?_spelled valid nonneg le,
    ofTimestamp?_spelled valid nonneg le (by omega) (by omega) (by omega)]
  rfl

/-- Let dates be numbered as in the calendar, and let the date of a Unix time have a year of at most
four digits. Then there is a timestamp of that time, and it is read as this date. It is past on the
date of another time exactly when its day comes before the day of that time. -/
theorem text_reads_back {calendar : Int → Date} (enumerates : IsCalendar calendar)
    (nonneg : 0 ≤ (calendar (n / 86400)).year) (le : (calendar (n / 86400)).year ≤ 9999) :
    ∃ stamp, text? n = some stamp ∧ parse? stamp = some (calendar (n / 86400)) ∧
      ∀ m : Int, isPast stamp (calendar (m / 86400)) = true ↔ n / 86400 < m / 86400 := by
  obtain rfl := enumerates.eq_ofDayNumber
  have range : firstYear ≤ (date n).year ∧ (date n).year ≤ lastYear :=
    ⟨Int.le_trans (by decide) nonneg, Int.le_trans le (by decide)⟩
  have read := parse?_text nonneg le
  refine ⟨text n, if_pos range, read, fun m => ?_⟩
  unfold isPast
  rw [read]
  dsimp only
  unfold date
  rw [before_iff (valid_ofDayNumber _) (valid_ofDayNumber _), dayNumber_ofDayNumber,
    dayNumber_ofDayNumber]

/-- The last second of a leap day is past on the next day and not before. -/
theorem leap_day_reads_back :
    0 ≤ (ofDayNumber (951868799 / 86400)).year ∧ (ofDayNumber (951868799 / 86400)).year ≤ 9999 ∧
      ∃ stamp, text? 951868799 = some stamp ∧ parse? stamp = some ⟨2000, 2, 29⟩ ∧
        isPast stamp ⟨2000, 3, 1⟩ = true ∧ isPast stamp ⟨2000, 2, 29⟩ = false := by
  have range : 0 ≤ (ofDayNumber (951868799 / 86400)).year ∧
      (ofDayNumber (951868799 / 86400)).year ≤ 9999 := by decide
  obtain ⟨stamp, written, read, past⟩ :=
    text_reads_back isCalendar_ofDayNumber (n := 951868799) range.1 range.2
  have today : ofDayNumber (951868799 / 86400) = ⟨2000, 2, 29⟩ := by decide
  have tomorrow : ofDayNumber (951868800 / 86400) = ⟨2000, 3, 1⟩ := by decide
  refine ⟨range.1, range.2, stamp, written, today ▸ read, ?_, ?_⟩
  · exact tomorrow ▸ (past 951868800).mpr (by decide)
  · rw [← today, Bool.eq_false_iff]
    exact mt (past 951868799).mp (by decide)

end Timestamp

end ObjectBoundary
